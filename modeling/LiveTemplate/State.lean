/-
The state of a component: a map that is read and written by dotted paths, and the set of
top-level fields written since the set was last taken. A write marks every list and map on its
path afresh, so values handed out earlier never change under their holder.
-/
import LiveTemplate.Error
import LiveTemplate.Text.Names
import LiveTemplate.Value.Basic

namespace LiveTemplate

/-- The fields of the state, the identity of their map, the changed fields, and the supply of
identities for new collections. -/
structure State where
  mark : Mark
  entries : Entries
  dirty : Names
  supply : Supply

/-- Computations that read and write the state and may fail; a failure keeps what was written. -/
abbrev Effect := ExceptT Error (StateM State)

namespace State

/-- The state with the given value, which has to be a map. -/
def ofValue : Value → Supply → Except Error State
  | .map mark entries, supply => .ok ⟨mark, entries, [], supply⟩
  | v, _ => .error (.bare (.stateNotMap v.kindName))

/-- The whole state as one map. -/
def value (s : State) : Value := .map s.mark s.entries

/-! ## Paths -/

/-- The segments of a dotted path. -/
def segments (path : String) : List String :=
  (Text.splitAll '.' path.toList).map String.ofList

/-- The list position that a segment names: decimal digits of a 64-bit word, a plus sign before
them allowed. -/
def position? (segment : String) : Option Nat :=
  let digits := match segment.toList with
    | '+' :: rest => rest
    | cs => cs
  (Decimal.natOfDigits 10 digits).filter (· < Decimal.pow2 64)

/-- The child of a value under one segment. -/
def child? (v : Value) (segment : String) : Option Value :=
  match v with
  | .map _ entries => Entries.get? entries segment
  | .list _ items => (position? segment).bind (items[·]?)
  | _ => none

/-- The value at a path. -/
def get? (s : State) (path : String) : Option Value :=
  (segments path).foldlM child? s.value

/-- The value to go on with below a key: what is there, or a new map if nothing is there and the
path goes on. -/
def descend (found : Option Value) (rest : List String) : Fresh Value :=
  match found with
  | some .null | none => if rest.isEmpty then return .null else Value.newMap []
  | some v => return v

/-- The value with another one written at a path below it. The collections on the way are marked
afresh, also where the write then fails. -/
def write (path : String) (new : Value) : List String → Value → Fresh (Value × Option Cause)
  | [], _ => return (new, none)
  | segment :: rest, .map _ entries => do
    let mark ← Fresh.mark
    let child ← descend (Entries.get? entries segment) rest
    let (child, failure) ← write path new rest child
    return (.map mark (Entries.insert segment child entries), failure)
  | segment :: rest, .list m items =>
    match (position? segment).bind fun i => (items[i]?).map (i, ·) with
    | none => return (.list m items, some (.notAnIndex path segment items.length))
    | some (i, child) => do
      let mark ← Fresh.mark
      let (child, failure) ← write path new rest child
      return (.list mark (items.set i child), failure)
  | _ :: _, v => return (v, some (.cannotIndex path v.kindName))

/-- Writes a value at a path and notes its first segment as changed. Maps missing on the way are
made; a list segment has to name a position of the list. -/
def set (path : String) (new : Value) : Effect Unit := fun s =>
  match segments path with
  | [] => (.error (.bare (.badPath path)), s)
  | first :: rest =>
    if (first :: rest).any String.isEmpty then (.error (.bare (.badPath path)), s)
    else
      let ((mark, child, failure), supply) := (do
        let mark ← Fresh.mark
        let child ← descend (s.entries.get? first) rest
        let (child, failure) ← write path new rest child
        return (mark, child, failure) : Fresh (Mark × Value × Option Cause)) s.supply
      let written := { s with mark, entries := s.entries.insert first child, supply }
      match failure with
      | some cause => (.error (.bare cause), written)
      | none => (.ok (), { written with dirty := s.dirty.insert first })

/-- Notes a field as changed. -/
def touch (field : String) (s : State) : State :=
  { s with dirty := s.dirty.insert field }

/-- Whether a field was changed since the changes were last taken. -/
def isDirty (s : State) : Bool :=
  !s.dirty.isEmpty

/-- Hands over the changed fields. -/
def takeDirty (s : State) : Names × State :=
  (s.dirty, { s with dirty := [] })

/-- Makes collections with the state's supply of identities. -/
def alloc {α : Type} (make : Fresh α) : Effect α := fun s =>
  let (a, supply) := make s.supply
  (.ok a, { s with supply })

end State

end LiveTemplate
