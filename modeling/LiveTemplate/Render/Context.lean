/-
What belongs to one instance of a template: its state and props, its methods, the handlers that
its page refers to, and the failures that rendering recovered from.
-/
import LiveTemplate.Expr.Eval
import LiveTemplate.Template
import LiveTemplate.Tree.Basic
import LiveTemplate.Value.Inspect

namespace LiveTemplate

/-- An expression that failed while its action ran. -/
structure Diagnostic where
  action : ActionId
  /-- The expression as it is printed. -/
  code : String
  error : Error
deriving Repr, DecidableEq

structure Context where
  state : State
  props : Value
  methods : Named Method
  handlers : Registry CapturedHandler
  /-- What the template rendered last depends on. -/
  dependencies : Option Dependencies
  /-- The failures since the last full render, oldest first. -/
  diagnostics : List Diagnostic

namespace Context

/-- The props of a context: a map, where null stands for an empty one. -/
def propsOf : Value → Supply → Except Error (Value × Supply)
  | .null, supply => .ok (Value.newMap [] supply)
  | .map mark entries, supply => .ok (.map mark entries, supply)
  | v, _ => .error (.bare (.propsNotMap v.kindName))

/-- A context that nothing was rendered with. -/
def new (state props : Value) (supply : Supply) : Except Error Context := do
  let (props, supply) ← propsOf props supply
  let state ← State.ofValue state supply
  return ⟨state, props, [], .withCapacity Registry.defaultCapacity, none, []⟩

/-- Adds a method, in place of an earlier one of the same name. -/
def addMethod (name : String) (method : Method) (c : Context) : Context :=
  { c with methods := c.methods.insert name method }

def hasMethod (c : Context) (name : String) : Bool :=
  (c.methods.get? name).isSome

/-- Hands over the diagnostics. -/
def takeDiagnostics (c : Context) : List Diagnostic × Context :=
  (c.diagnostics, { c with diagnostics := [] })

/-! ## Evaluation -/

/-- What an expression with places in `source` is evaluated with. -/
def env (c : Context) (t : Template) (source : String) (scope : Scope) : Env :=
  { source, functions := t.functions.get?, props := c.props, methods := c.methods.get?, scope }

end Context

/-- Computations that may change the context and may fail. -/
abbrev Attempt := ExceptT Error (StateM Context)

namespace Attempt

/-- Evaluates an expression of a template. -/
def eval (t : Template) (scope : Scope) (e : Expr) : Attempt Value := fun c =>
  let (result, state) := e.eval (c.env t t.source scope) c.state
  (result, { c with state })

/-- What an action gives. If it fails, the failure is recorded and the action gives the
stand-in. -/
def recover {α : Type} (t : Template) (action : ActionId) (e : Expr) (standIn : α)
    (attempt : Attempt α) : StateM Context α := fun c =>
  match attempt c with
  | (.ok a, c) => (a, c)
  | (.error err, c) =>
    (standIn, { c with diagnostics := c.diagnostics ++ [⟨action, e.print, err.named t.name⟩] })

end Attempt

/-! ## Inspection -/

/-- The inspection text of a state. -/
def State.inspect (s : State) : String :=
  "State \x7b value: " ++ s.value.inspect ++ ", dirty: \x7b"
    ++ ", ".intercalate (s.dirty.map Text.quoted) ++ "\x7d \x7d"

/-- The inspection text of a diagnostic. -/
def Diagnostic.inspect (d : Diagnostic) : String :=
  "Diagnostic \x7b action: ActionId(" ++ Decimal.natText d.action ++ "), code: "
    ++ Text.quoted d.code ++ ", error: " ++ d.error.report ++ " \x7d"

/-- The inspection text of a context. -/
def Context.inspect (c : Context) : String :=
  "Context \x7b state: " ++ c.state.inspect ++ ", props: " ++ c.props.inspect ++ ", methods: ["
    ++ ", ".intercalate (c.methods.names.map Text.quoted) ++ "], handlers: " ++ c.handlers.inspect
    ++ ", diagnostics: [" ++ ", ".intercalate (c.diagnostics.map Diagnostic.inspect) ++ "], .. \x7d"

end LiveTemplate
