/-
The functions that templates may call by name.
-/
import LiveTemplate.Error
import LiveTemplate.Text.Names
import LiveTemplate.Value.Basic

namespace LiveTemplate

/-- A function from arguments to a value; it may make collections and it may fail. -/
abbrev Function := List Value → ExceptT Error Fresh Value

/-- Functions by ascending name. -/
structure Functions where
  entries : Named Function

namespace Functions

def empty : Functions := ⟨[]⟩

/-- Adds a function, in place of an earlier one of the same name. -/
def insert (functions : Functions) (name : String) (f : Function) : Functions :=
  ⟨functions.entries.insert name f⟩

/-- The function of a name. -/
def get? (functions : Functions) (name : String) : Option Function :=
  functions.entries.get? name

/-- Whether there is a function of a name. -/
def contains (functions : Functions) (name : String) : Bool :=
  (functions.get? name).isSome

/-- The names in ascending order. -/
def names (functions : Functions) : List String :=
  functions.entries.names

end Functions

/-- The argument at a position, null if it was not given. -/
def argument (args : List Value) (i : Nat) : Value :=
  (args[i]?).getD .null

end LiveTemplate
