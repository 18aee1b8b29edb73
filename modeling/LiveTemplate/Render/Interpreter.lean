/-
Runs the instructions of a template. Expressions that fail are recorded and their actions render
empty, so a run always goes on; it gets stuck only on instructions that do not fit together, which
no compiled template has.

Each action becomes a block of the tree that remembers where its instructions start and which
variables were in scope, so that it can be run again alone.
-/
import LiveTemplate.Json.Writer
import LiveTemplate.Render.Context
import LiveTemplate.Render.Output

namespace LiveTemplate

/-- Why instructions cannot be run. -/
inductive Stuck where
  /-- An attribute, a listener or the end of an element where no element is open. -/
  | noOpenElement (pc : Nat)
  /-- A test that is not directly in a conditional. -/
  | strayBranch (pc : Nat)
  /-- A loop that does not start by going on to its first item. -/
  | brokenLoop (pc : Nat)
  /-- The start of an iteration or the end of a block where none is open. -/
  | strayEnd (pc : Nat)
  /-- A position that is to be run again and does not start an action of that kind. -/
  | notAnAction (pc : Nat)
  /-- A position past the last instruction. -/
  | pastEnd (pc : Nat)
  /-- More steps than there are instructions. -/
  | endless
deriving Repr, DecidableEq

/-- Computations that run instructions. -/
abbrev Run := ExceptT Stuck (StateM Context)

/-- Where a run takes place. What touches the context is either the work of an instruction, which is
executed at a position with variables in scope, or is done between instructions. A plain run only
does the work; others may keep an account of it. -/
class Executor (m : Type → Type) where
  /-- Executes the instruction at `pc` with the given variables in scope. -/
  visit {α : Type} (pc : Nat) (scope : Scope) (work : Run α) : m α
  /-- Executes no instruction. -/
  between {α : Type} (work : Run α) : m α

instance : Executor Run where
  visit _ _ work := work
  between work := work

/-- The value, or stuck if there is none. -/
def Run.need {m : Type → Type} [Monad m] [MonadExceptOf Stuck m] {α : Type} (o : Option α)
    (stuck : Stuck) : m α :=
  match o with
  | some a => return a
  | none => throw stuck

/-! ## Actions -/

namespace Template

/-- The items of a collection; a value that is none fails. -/
def collect (t : Template) (scope : Scope) (e : Expr) : Attempt (List LoopItem) := do
  let v ← Attempt.eval t scope e
  match loopItems? v with
  | some items => return items
  | none => throw (.located (.notIterable v.kindName) t.source e.span)

/-- The items of a loop; it has none if its collection fails. -/
def items (t : Template) (scope : Scope) (e : Expr) (action : ActionId) :
    StateM Context (List LoopItem) :=
  Attempt.recover t action e [] (t.collect scope e)

/-- The node of a value; a list or map has no text. -/
def present (t : Template) (scope : Scope) (e : Expr) (mode : EmitMode) : Attempt Node := do
  let v ← Attempt.eval t scope e
  match mode, v.pageText? with
  | .text, some s => return .text s
  | .html, some s => return .html s
  | .json, _ => return .element (.plain "pre" none) [.text (Json.pretty "" v)]
  | _, none => throw (.located (.notText v.kindName) t.source e.span)

/-- The nodes of an emitted expression; there are none if it fails. -/
def emitted (t : Template) (scope : Scope) (e : Expr) (mode : EmitMode) (action : ActionId) :
    StateM Context (List Node) :=
  Attempt.recover t action e [] do
    return [← t.present scope e mode]

/-- How a value is written as an attribute: null and false leave it out, true makes it a flag. -/
def attributeOf : Value → Option (Option String)
  | .null | .bool false => none
  | .bool true => some none
  | v => some (some v.display)

/-- A dynamic attribute as it is now; it is left out if its expression fails. -/
def attributeValue (t : Template) (scope : Scope) (e : Expr) (action : ActionId) :
    StateM Context (Option (Option String)) :=
  Attempt.recover t action e none (attributeOf <$> Attempt.eval t scope e)

/-- Whether the test of a branch lets the run go on there; nothing if the test fails. -/
def test (t : Template) (scope : Scope) (e : Expr) (negate : Bool) (action : ActionId) :
    StateM Context (Option Bool) :=
  Attempt.recover t action e none do
    let v ← Attempt.eval t scope e
    return some (v.truthy != negate)

end Template

/-- The variables of a handler with what they hold; one that is not in scope holds null. -/
def HandlerSource.capture (handler : HandlerSource) (scope : Scope) : Bindings :=
  handler.locals.map fun name => (name, ((scope.find? name).map Var.value).getD .null)

/-- Whether all variables of a handler are indices. -/
def HandlerSource.onlyIndices (handler : HandlerSource) (scope : Scope) : Bool :=
  handler.locals.all fun name => ((scope.find? name).map Var.isIndex).getD false

/-- The handler to bind. One that reads no variables stands as code; indices are written into the
code; any other variables are captured and the handler is kept under a token. -/
def HandlerSource.attach (handler : HandlerSource) (scope : Scope) : StateM Context Handler :=
  fun c =>
    let locals := handler.capture scope
    if handler.onlyIndices scope then (.inline (handler.expr.substitute locals).print, c)
    else
      let (token, handlers) := c.handlers.registerPersistent ⟨handler, locals⟩
      (.token token, { c with handlers })

/-! ## Instructions -/

/-- What the instructions that are being run belong to. -/
inductive Frame where
  | page
  | conditional (action : ActionId)
  /-- A loop, and where its iterations start. -/
  | loop (head : Nat)
deriving Repr, DecidableEq

namespace Template

/-- Runs an instruction that neither jumps nor starts an action with a block. -/
def step (t : Template) (scope : Scope) (pc : Nat) (instr : Instr) (out : Output) : Run Output :=
  match instr with
  | .createElement tag key => return out.openElement (.plain tag key)
  | .setAttribute name value =>
    Run.need (out.modify? fun e => { e with attrs := e.attrs ++ [(name, some value)] })
      (.noOpenElement pc)
  | .setFlag name =>
    Run.need (out.modify? fun e => { e with attrs := e.attrs ++ [(name, none)] })
      (.noOpenElement pc)
  | .setAttributeExpr name e action => do
    let value ← t.attributeValue scope e action
    Run.need (out.modify? fun element =>
      { element.setAttr name value with bindings := element.bindings ++ [⟨action, pc, scope⟩] })
      (.noOpenElement pc)
  | .addListener event handler => do
    let handler ← handler.attach scope
    Run.need (out.modify? fun e => { e with events := e.events ++ [⟨event, handler⟩] })
      (.noOpenElement pc)
  | .appendChild => Run.need out.close? (.noOpenElement pc)
  | .createText text => return out.push (.html text)
  | _ => throw (.strayEnd pc)

section

variable {m : Type → Type} [Monad m] [MonadExceptOf Stuck m] [Executor m]

mutual

/-- Runs the instructions from `pc` to before `stop`, in at most `fuel` steps. A jump to the head
of the loop around ends the iteration. -/
def runIn (t : Template) : (fuel : Nat) → Frame → Scope → (stop pc : Nat) → Output → m Output
  | fuel, frame, scope, stop, pc, out =>
    if pc < stop then
      match fuel with
      | 0 => throw .endless
      | fuel + 1 => do
        match ← Run.need t.program.instrs[pc]? (.pastEnd pc) with
        | .emit .. | .openConditional .. | .openLoop .. =>
          let (anchor, children) ← runBlockIn t fuel pc scope
          runIn t fuel frame scope stop (anchor.stop + 1) (out.push (.block anchor children))
        | .branch e negate target =>
          match frame with
          | .conditional action =>
            match ← Executor.visit pc scope (t.test scope e negate action) with
            | some true => runIn t fuel frame scope stop (pc + 1) out
            | some false => runIn t fuel frame scope stop target out
            | none => return out
          | _ => throw (.strayBranch pc)
        | .jump target =>
          if frame = .loop target then return out
          else runIn t fuel frame scope stop target out
        | instr =>
          let out ← Executor.visit pc scope (t.step scope pc instr out)
          runIn t fuel frame scope stop (pc + 1) out
    else return out
termination_by structural fuel => fuel

/-- Runs the action that starts at `pc`, and gives the place and the nodes of its block. -/
def runBlockIn (t : Template) : (fuel : Nat) → (pc : Nat) → Scope → m (Anchor × List Node)
  | 0, _, _ => throw .endless
  | fuel + 1, pc, scope => do
    match t.program.instrs[pc]? with
    | some (.emit e mode action) =>
      let children ← Executor.visit pc scope (t.emitted scope e mode action)
      return (⟨action, pc, pc, scope⟩, children)
    | some (.openConditional action stop) =>
      let out ← runIn t fuel (.conditional action) scope stop (pc + 1) .empty
      return (⟨action, pc, stop, scope⟩, out.finish)
    | some (.openLoop action binding collection stop) =>
      let items ← Executor.visit pc scope (t.items scope collection action)
      match t.program.instrs[pc + 1]? with
      | some (.iterate target) =>
        if target = stop then
          let out ← items.foldlM (fun out item =>
            runIn t fuel (.loop (pc + 1)) (scope ++ binding.bind item) stop (pc + 2) out) .empty
          return (⟨action, pc, stop, scope⟩, out.finish)
        else throw (.brokenLoop pc)
      | _ => throw (.brokenLoop pc)
    | _ => throw (.notAnAction pc)
termination_by structural fuel => fuel

end

end

/-- Runs instructions and does nothing else. -/
abbrev run (t : Template) (fuel : Nat) (frame : Frame) (scope : Scope) (stop pc : Nat) (out : Output) :
    Run Output :=
  t.runIn fuel frame scope stop pc out

/-- Runs an action and does nothing else. -/
abbrev runBlock (t : Template) (fuel pc : Nat) (scope : Scope) : Run (Anchor × List Node) :=
  t.runBlockIn fuel pc scope

/-- The number of steps that suffices for any part of a compiled program. -/
def fuel (t : Template) : Nat := t.program.instrs.size + 1

/-- Runs the whole program. -/
def runAllIn {m : Type → Type} [Monad m] [MonadExceptOf Stuck m] [Executor m] (t : Template) :
    m (List Node) :=
  return (← t.runIn t.fuel .page [] t.program.instrs.size 0 .empty).finish

/-- Runs the whole program and does nothing else. -/
abbrev runAll (t : Template) : Run (List Node) := t.runAllIn

end Template

end LiveTemplate
