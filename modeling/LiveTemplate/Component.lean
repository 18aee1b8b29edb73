/-
Components: a rendered template bound to its context. Writes to the state, also those of event
handlers, run the parts of the tree again that read the changed fields.
-/
import LiveTemplate.Expr.Parser
import LiveTemplate.Expr.Resolve
import LiveTemplate.Render.Update

namespace LiveTemplate

structure Component where
  template : Template
  context : Context
  tree : List Node

namespace Component

/-- Renders a template; the tree then shows all that was written so far. -/
def new (t : Template) (c : Context) : Component :=
  let (tree, c) := t.render c
  ⟨t, { c with state := c.state.takeDirty.2 }, tree⟩

/-- Renders the whole tree again. -/
def render (c : Component) : Component := new c.template c.context

/-- The value at a path of the state. -/
def get? (c : Component) (path : String) : Option Value :=
  c.context.state.get? path

/-- Runs again what depends on the fields written since the last flush, and gives the actions that
ran. -/
def flush (c : Component) : List ActionId × Component :=
  let (dirty, state) := c.context.state.takeDirty
  if dirty.isEmpty then ([], c)
  else
    let ((ran, tree), context) := c.template.update dirty c.tree { c.context with state }
    (ran, { c with context, tree })

/-- Writes a value at a path of the state and brings the tree up to date. -/
def set (path : String) (v : Value) (c : Component) : Except Error (List ActionId) × Component :=
  match State.set path v c.context.state with
  | (.error e, state) => (.error e, { c with context := { c.context with state } })
  | (.ok (), state) =>
    let (ran, c) := flush { c with context := { c.context with state } }
    (.ok ran, c)

/-! ## Events -/

/-- The handler that a code stands for. It sees no loop variables. -/
def readHandler (t : Template) (code : String) : Except Error HandlerSource :=
  if (Text.trim code.toList).isEmpty then .error (.bare .emptyHandler)
  else
    ((Expr.parse (.whole code)).bind (Expr.resolveHandler ⟨t.functions.contains, [], []⟩)).mapError
      (Error.ofFault code)

/-- Invokes a handler with an event, where its places refer to `source`. -/
def invokeSource (handler : HandlerSource) (source : String) (scope : Scope) (event : Value)
    (c : Component) : Except Error Value × Component :=
  let env := c.context.env c.template source scope
  let (result, state) := handler.expr.invoke env event c.context.state
  (result.mapError (Error.named c.template.name), { c with context := { c.context with state } })

/-- Invokes a handler with an event. -/
def invoke (handler : Handler) (event : Value) (c : Component) : Except Error Value × Component :=
  match handler with
  | .inline code => match readHandler c.template code with
    | .error e => (.error e, c)
    | .ok source => c.invokeSource source code [] event
  | .token token => match c.context.handlers.take token with
    | (none, _) => (.error (.bare (.unknownToken token)), c)
    | (some captured, handlers) =>
      let scope := captured.locals.map fun (name, v) => ⟨name, v, false⟩
      invokeSource captured.source c.template.source scope event
        { c with context := { c.context with handlers } }

/-- Invokes a handler and brings the tree up to date, also if the handler failed part way. -/
def dispatch (handler : Handler) (event : Value) (c : Component) :
    Except Error Value × Component :=
  let (result, c) := c.invoke handler event
  (result, c.flush.2)

end Component

end LiveTemplate
