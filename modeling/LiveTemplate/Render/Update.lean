/-
Rendering a template, and running the parts of a rendered tree again whose fields have changed.
A block that runs again is replaced as a whole; outside such blocks only the dynamic attributes
concerned are evaluated again, and everything else stays as it is.
-/
import LiveTemplate.Render.Interpreter

namespace LiveTemplate

namespace Template

/-- The context as a full render finds it: no handlers, no diagnostics, and what this template
depends on. -/
def prepare (t : Template) (c : Context) : Context :=
  { c with
    handlers := c.handlers.clear.setCapacity t.handlerCapacity
    dependencies := some t.dependencies
    diagnostics := [] }

/-- The tree of a template in a context, and the context afterwards. -/
def render (t : Template) (c : Context) : List Node × Context :=
  match t.runAll (t.prepare c) with
  | (.ok nodes, c) => (nodes, c)
  | (.error _, c) => ([], c)

/-! ## Updates -/

/-- Lets go of the handlers of nodes that are replaced. -/
def releaseAll (nodes : List Node) : StateM Context Unit := fun c =>
  let handlers := (tokensOf nodes).foldl (fun r token => (r.release token).2) c.handlers
  ((), { c with handlers })

section

variable {m : Type → Type} [Monad m] [MonadExceptOf Stuck m] [Executor m]

/-- Evaluates the dynamic attributes of an element again whose actions are among the given ones,
and tells which they were. -/
def updateAttributesIn (t : Template) (actions : List ActionId) :
    List AttributeBinding → Element → m (Element × List ActionId)
  | [], e => return (e, [])
  | b :: rest, e => do
    if actions.contains b.action then
      match t.program.instrs[b.pc]? with
      | some (.setAttributeExpr name expr action) =>
        let value ← Executor.visit b.pc b.scope (t.attributeValue b.scope expr action)
        let (e, ran) ← updateAttributesIn t actions rest (e.setAttr name value)
        return (e, b.action :: ran)
      | _ => throw (.notAnAction b.pc)
    else updateAttributesIn t actions rest e

mutual

/-- Runs the outermost blocks and the attributes of a node again whose actions are among the given
ones, and tells which they were. -/
def updateNodeIn (t : Template) (actions : List ActionId) : Node → m (Node × List ActionId)
  | .text s => return (.text s, [])
  | .html s => return (.html s, [])
  | .block anchor children => do
    if actions.contains anchor.action then
      Executor.between (releaseAll children)
      let (anchor, children) ← t.runBlockIn t.fuel anchor.start anchor.scope
      return (.block anchor children, [anchor.action])
    else
      let (children, ran) ← updateNodesIn t actions children
      return (.block anchor children, ran)
  | .element e children => do
    let (e, ran) ← t.updateAttributesIn actions e.bindings e
    let (children, more) ← updateNodesIn t actions children
    return (.element e children, ran ++ more)

/-- The same for a list of nodes. -/
def updateNodesIn (t : Template) (actions : List ActionId) :
    List Node → m (List Node × List ActionId)
  | [] => return ([], [])
  | n :: rest => do
    let (n, ran) ← updateNodeIn t actions n
    let (rest, more) ← updateNodesIn t actions rest
    return (n :: rest, ran ++ more)

end

end

/-- Evaluates attributes again and does nothing else. -/
abbrev updateAttributes (t : Template) (actions : List ActionId) (bindings : List AttributeBinding)
    (e : Element) : Run (Element × List ActionId) :=
  t.updateAttributesIn actions bindings e

/-- Brings a node up to date and does nothing else. -/
abbrev updateNode (t : Template) (actions : List ActionId) (n : Node) : Run (Node × List ActionId) :=
  t.updateNodeIn actions n

/-- Brings nodes up to date and does nothing else. -/
abbrev updateNodes (t : Template) (actions : List ActionId) (nodes : List Node) :
    Run (List Node × List ActionId) :=
  t.updateNodesIn actions nodes

/-- Brings a tree up to date with a change of some fields. Gives the actions that ran, in
ascending order, and the new tree. -/
def update (t : Template) (fields : List String) (nodes : List Node) (c : Context) :
    (List ActionId × List Node) × Context :=
  let actions := t.dependencies.actionsFor fields
  if actions.isEmpty then (([], nodes), c)
  else match t.updateNodes actions nodes c with
    | (.ok (nodes, ran), c) =>
      ((ran.foldl (fun set id => Dependencies.insertId id set) [], nodes), c)
    | (.error _, c) => (([], nodes), c)

end Template

end LiveTemplate
