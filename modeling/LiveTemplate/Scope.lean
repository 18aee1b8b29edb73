/-
The loop variables that are in scope while a template is rendered.
-/
import LiveTemplate.Expr.Basic

namespace LiveTemplate

/-- A variable; an index holds the position of the current item. -/
structure Var where
  name : String
  value : Value
  isIndex : Bool

/-- Variables, innermost last. -/
abbrev Scope := List Var

namespace Scope

/-- The innermost variable of a name. -/
def find? (scope : Scope) (name : String) : Option Var :=
  scope.reverse.find? (·.name == name)

/-- The names in scope, innermost last. -/
def names (scope : Scope) : List String :=
  scope.map Var.name

end Scope

/-- One step of a loop: the key if the collection is a map, the value and the position. -/
structure LoopItem where
  key : Option String
  value : Value
  position : Nat

/-- The items that a loop over a value visits, in order. Null has none; scalars are no
collections. -/
def loopItems? : Value → Option (List LoopItem)
  | .list _ items => some (items.zipIdx.map fun (v, i) => ⟨none, v, i⟩)
  | .map _ entries => some (entries.zipIdx.map fun ((k, v), i) => ⟨some k, v, i⟩)
  | .null => some []
  | _ => none

/-- The variables that a loop binds for one item. One parameter is the value, with the index the
binding brings along; two are value and position for a list, key and value for a map; three are
key or position, value and position, and any more are null. -/
def LoopBinding.bind (b : LoopBinding) (item : LoopItem) : List Var :=
  let index : Value := .int (Int64.ofNat item.position)
  match b.params, item.key with
  | [], _ => []
  | [p], _ => ⟨p, item.value, false⟩ :: (b.indexParam.map (⟨·, index, true⟩)).toList
  | [p, q], none => [⟨p, item.value, false⟩, ⟨q, index, true⟩]
  | [p, q], some key => [⟨p, .text key, false⟩, ⟨q, item.value, false⟩]
  | p :: q :: r :: more, key =>
    (match key with
      | some key => ⟨p, .text key, false⟩
      | none => ⟨p, index, true⟩)
      :: ⟨q, item.value, false⟩ :: ⟨r, index, true⟩ :: more.map (⟨·, .null, false⟩)

end LiveTemplate
