/-
A store of values that rendered markup refers to by token. Tokens grow and are never reused; an
entry is used once or stays until it is released, and the oldest entries give way when there are
more than the capacity allows.
-/
import LiveTemplate.Decimal.Layout

namespace LiveTemplate

namespace Registry

/-- The name of an entry. -/
abbrev Token := Nat

/-- A stored value. -/
structure Entry (α : Type) where
  token : Token
  value : α
  persistent : Bool

/-- The capacity of a registry for which none is chosen. -/
def defaultCapacity : Nat := 4096

end Registry

/-- The entries in ascending order of their tokens, the next token and the capacity. -/
structure Registry (α : Type) where
  entries : List (Registry.Entry α)
  next : Registry.Token
  capacity : Nat

namespace Registry

variable {α : Type}

/-- An empty registry; it holds at least one entry. -/
def withCapacity (capacity : Nat) : Registry α := ⟨[], 1, max capacity 1⟩

/-- Drops the oldest entries beyond the capacity. -/
def evict (r : Registry α) : Registry α :=
  { r with entries := r.entries.drop (r.entries.length - r.capacity) }

def setCapacity (capacity : Nat) (r : Registry α) : Registry α :=
  evict { r with capacity := max capacity 1 }

/-- Stores a value under a new token. -/
def insert (value : α) (persistent : Bool) (r : Registry α) : Token × Registry α :=
  let entries := r.entries ++ [⟨r.next, value, persistent⟩]
  (r.next, evict { r with entries, next := r.next + 1 })

/-- Stores a value that goes when it is taken. -/
def register (value : α) (r : Registry α) : Token × Registry α := r.insert value false

/-- Stores a value that stays until it is released. -/
def registerPersistent (value : α) (r : Registry α) : Token × Registry α := r.insert value true

/-- The entry under a token. -/
def find? (r : Registry α) (token : Token) : Option (Entry α) :=
  r.entries.find? (·.token == token)

/-- The value under a token. -/
def get? (r : Registry α) (token : Token) : Option α :=
  (r.find? token).map Entry.value

/-- Removes the entry under a token; false if there is none. -/
def release (token : Token) (r : Registry α) : Bool × Registry α :=
  ((r.find? token).isSome, { r with entries := r.entries.filter (·.token != token) })

/-- The value under a token, which goes if it is for single use. -/
def take (token : Token) (r : Registry α) : Option α × Registry α :=
  match r.find? token with
  | some e => (some e.value, if e.persistent then r else (r.release token).2)
  | none => (none, r)

/-- Removes every entry; later tokens still differ from all earlier ones. -/
def clear (r : Registry α) : Registry α := { r with entries := [] }

def size (r : Registry α) : Nat := r.entries.length

def isEmpty (r : Registry α) : Bool := r.entries.isEmpty

/-- The inspection text of a registry. -/
def inspect (r : Registry α) : String :=
  "HandlerRegistry \x7b len: " ++ Decimal.natText r.size ++ ", next: " ++ Decimal.natText r.next
    ++ ", capacity: " ++ Decimal.natText r.capacity ++ " \x7d"

end Registry

end LiveTemplate
