/-
What an outline renders to, read directly from the tree: the first clause whose test holds, the
body of a loop once for each item, and everything in the order in which it is written. The places
are those of the code that the outline is laid out as, so that the blocks and attributes of the
tree can be found again by them.
-/
import LiveTemplate.Proofs.Program.Outline
import LiveTemplate.Render.Interpreter

namespace LiveTemplate

/-! ## Meaning -/

/-- Adds an attribute or listener to an element. -/
def Feature.render (t : Template) (p : Place) (scope : Scope) (e : Element) :
    Feature → StateM Context Element
  | plain name value => return { e with attrs := e.attrs ++ [(name, some value)] }
  | flag name => return { e with attrs := e.attrs ++ [(name, none)] }
  | dynamic name expr => do
    let value ← t.attributeValue scope expr p.action
    return { e.setAttr name value with bindings := e.bindings ++ [⟨p.action, p.pc, scope⟩] }
  | listener event handler => do
    let handler ← handler.attach scope
    return { e with events := e.events ++ [⟨event, handler⟩] }

def Features.render (t : Template) (p : Place) (scope : Scope) (e : Element) :
    List Feature → StateM Context Element
  | [] => return e
  | f :: rest => do
    let e ← f.render t p scope e
    Features.render t (p + f.room) scope e rest

mutual

/-- The node of a part at a place. -/
def Item.render (t : Template) (p : Place) (scope : Scope) : Item → StateM Context Node
  | .text s => return .html s
  | .element tag key features children => do
    let e ← Features.render t (p + .one) scope (.plain tag key) features
    let children ← Items.render t (p + (.one + Features.room features)) scope children
    return .element e children
  | .block b => do
    let (anchor, children) ← b.render t p scope
    return .block anchor children

def Items.render (t : Template) (p : Place) (scope : Scope) : List Item → StateM Context (List Node)
  | [] => return []
  | i :: rest => do
    let n ← i.render t p scope
    let others ← Items.render t (p + i.room) scope rest
    return n :: others

/-- The place and the nodes of a block. The items of a loop are found once, in the scope around
it; a block whose expression fails is empty. -/
def Block.render (t : Template) (p : Place) (scope : Scope) :
    Block → StateM Context (Anchor × List Node)
  | .emit e mode => do
    let children ← t.emitted scope e mode p.action
    return (⟨p.action, p.pc, p.pc, scope⟩, children)
  | .chain clauses => do
    let children ← clauses.render t p.action (p + .acting) scope
    return (⟨p.action, p.pc, (Block.chain clauses).stop p, scope⟩, children)
  | .loop binding collection body => do
    let items ← t.items scope collection p.action
    let rounds ← items.mapM fun item =>
      Items.render t (p + (.acting + .one)) (scope ++ binding.bind item) body
    return (⟨p.action, p.pc, (Block.loop binding collection body).stop p, scope⟩, rounds.flatten)

/-- The nodes of the first clause whose test holds; none if a test fails on the way. -/
def Clauses.render (t : Template) (action : ActionId) (p : Place) (scope : Scope) :
    Clauses → StateM Context (List Node)
  | .done => return []
  | .otherwise body => Items.render t p scope body
  | .clause test negate body rest => do
    match ← t.test scope test negate action with
    | some true => Items.render t (p + .one) scope body
    | some false => rest.render t action (Clauses.next p body rest) scope
    | none => return []

end

theorem Clauses.render_clause (t : Template) (action : ActionId) (p : Place) (scope : Scope)
    (test : Expr) (negate : Bool) (body : List Item) (rest : Clauses) (c : Context) :
    (Clauses.clause test negate body rest).render t action p scope c =
      match t.test scope test negate action c with
      | (some true, c) => Items.render t (p + Place.one) scope body c
      | (some false, c) => rest.render t action (Clauses.next p body rest) scope c
      | (none, c) => ([], c) := by
  rw [Clauses.render]
  show (match (t.test scope test negate action c).1 with
    | some true => Items.render t (p + Place.one) scope body
    | some false => rest.render t action (Clauses.next p body rest) scope
    | none => (return [] : StateM Context (List Node))) (t.test scope test negate action c).2 = _
  rcases t.test scope test negate action c with ⟨_ | _ | _, _⟩ <;> rfl

/-- Whatever a block renders to, it remembers its place and the variables around it. -/
theorem Block.render_anchor (t : Template) (p : Place) (scope : Scope) (c : Context) :
    ∀ b : Block, (b.render t p scope c).1.1 = ⟨p.action, p.pc, b.stop p, scope⟩ := by
  intro b
  cases b <;> rfl

end LiveTemplate
