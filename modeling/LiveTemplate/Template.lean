/-
Templates: a compiled source together with all that rendering it needs. A template is shared by
its instances and never changes.
-/
import LiveTemplate.Functions.Basic
import LiveTemplate.Program.Dependencies

namespace LiveTemplate

/-- A compiled source with all that rendering it needs. -/
structure Template where
  /-- Tells the templates of one engine apart. -/
  serial : Nat
  source : String
  name : Option String
  program : Program
  dependencies : Dependencies
  functions : Functions
  handlerCapacity : Nat

/-- The inspection text of an optional text. -/
def inspectOption : Option String → String
  | some s => "Some(" ++ Text.quoted s ++ ")"
  | none => "None"

/-- The inspection text of a template. -/
def Template.inspect (t : Template) : String :=
  "Template \x7b name: " ++ inspectOption t.name ++ ", source: " ++ Text.quoted t.source
    ++ ", actions: " ++ Decimal.natText t.program.actions.size ++ ", .. \x7d"

end LiveTemplate
