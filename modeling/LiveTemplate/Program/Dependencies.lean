/-
Which actions depend on which field of the state.
-/
import LiveTemplate.Program.Basic

namespace LiveTemplate

/-- The actions that read each field, by ascending field, and those that read the whole state. -/
structure Dependencies where
  fields : List (String × List ActionId)
  any : List ActionId
deriving Repr, DecidableEq

namespace Dependencies

/-- Notes that an action reads a field. -/
def addField (id : ActionId) (field : String) :
    List (String × List ActionId) → List (String × List ActionId)
  | [] => [(field, [id])]
  | (f, ids) :: rest =>
    if field = f then (f, ids ++ [id]) :: rest
    else if field < f then (field, [id]) :: (f, ids) :: rest
    else (f, ids) :: addField id field rest

/-- Notes what one action reads. -/
def add (deps : Dependencies) (id : ActionId) (action : Action) : Dependencies :=
  { fields := action.fields.foldl (fun fields f => addField id f fields) deps.fields
    any := if action.any then deps.any ++ [id] else deps.any }

/-- What the actions of a program read. -/
def ofActions (actions : List Action) : Dependencies :=
  actions.zipIdx.foldl (fun deps (action, id) => deps.add id action) ⟨[], []⟩

/-- The actions that read a field. -/
def get (deps : Dependencies) (field : String) : List ActionId :=
  (deps.fields.lookup field).getD []

/-- Adds a number to an ascending list of numbers. -/
def insertId (id : ActionId) : List ActionId → List ActionId
  | [] => [id]
  | n :: rest =>
    if id = n then n :: rest
    else if id < n then id :: n :: rest
    else n :: insertId id rest

/-- The actions that a change of some fields concerns, in ascending order; whoever reads the whole
state is concerned by any change. -/
def actionsFor (deps : Dependencies) (changed : List String) : List ActionId :=
  let ids := changed.flatMap deps.get ++ (if changed.isEmpty then [] else deps.any)
  ids.foldl (fun set id => insertId id set) []

def isEmpty (deps : Dependencies) : Bool :=
  deps.fields.isEmpty && deps.any.isEmpty

end Dependencies

end LiveTemplate
