/-
What the actions of a template give, as functions of the values of their expressions. An action
evaluates its expression once and turns the value into nodes, items, an attribute or a choice;
where there is no value, or none that fits, it gives its stand-in. Besides the state that the
evaluation leaves only the diagnostics change.
-/
import LiveTemplate.Proofs.Computation
import LiveTemplate.Render.Interpreter

namespace LiveTemplate

variable {α : Type} {t : Template} {scope : Scope} {e : Expr} {action : ActionId}

/-- The value of an expression in a context, if it has one. -/
def Template.value? (t : Template) (c : Context) (scope : Scope) (e : Expr) : Option Value :=
  (e.eval (c.env t t.source scope) c.state).1.toOption

/-- An action gives a function of the value of an expression, where there is none if it fails, and
leaves the context as the evaluation does, up to the diagnostics. -/
structure Follows (t : Template) (scope : Scope) (e : Expr) (m : StateM Context α)
    (f : Option Value → α) : Prop where
  result : ∀ c, (m c).1 = f (t.value? c scope e)
  context : ∀ c, ∃ diagnostics,
    (m c).2 = { c with state := (e.eval (c.env t t.source scope) c.state).2, diagnostics }

/-- An action that goes on from the value of its expression without a look at the context. -/
theorem follows_recover {standIn : α} {g : Value → Attempt α} {f : Option Value → α}
    (hf : f none = standIn)
    (hg : ∀ v c, g v c = (.ok (f (some v)), c) ∨ f (some v) = standIn ∧ ∃ err, g v c = (.error err, c)) :
    Follows t scope e (Attempt.recover t action e standIn (Attempt.eval t scope e >>= g)) f := by
  have both (c : Context) : ∃ diagnostics,
      Attempt.recover t action e standIn (Attempt.eval t scope e >>= g) c =
        (f (t.value? c scope e),
          { c with state := (e.eval (c.env t t.source scope) c.state).2, diagnostics }) := by
    unfold Attempt.recover Template.value?
    rw [stateful_bind, Attempt.eval]
    rcases e.eval (c.env t t.source scope) c.state with ⟨_ | v, s⟩
    · exact ⟨_, Prod.ext hf.symm rfl⟩
    · rcases hg v { c with state := s } with h | ⟨hs, _, h⟩ <;> simp only [h]
      · exact ⟨c.diagnostics, rfl⟩
      · exact ⟨_, Prod.ext hs.symm rfl⟩
  constructor <;> intro c <;> obtain ⟨diagnostics, h⟩ := both c <;> rw [h]
  exact ⟨diagnostics, rfl⟩

/-! ## The actions -/

/-- The nodes of a value; a list or map has no text. -/
def EmitMode.nodes (v : Value) : EmitMode → List Node
  | text => (v.pageText?.map Node.text).toList
  | html => (v.pageText?.map Node.html).toList
  | json => [.element (.plain "pre" none) [.text (Json.pretty "" v)]]

mutual

/-- A node that is never run again: it has neither blocks nor dynamic attributes. -/
def Node.Static : Node → Prop
  | .text _ | .html _ => True
  | .element e children => e.bindings = [] ∧ Nodes.Static children
  | .block .. => False

def Nodes.Static : List Node → Prop
  | [] => True
  | n :: rest => n.Static ∧ Nodes.Static rest

end

theorem EmitMode.nodes_static (v : Value) (mode : EmitMode) : Nodes.Static (mode.nodes v) := by
  cases mode with
  | json => exact ⟨⟨rfl, trivial, trivial⟩, trivial⟩
  | _ =>
    simp only [nodes]
    rcases v.pageText? with _ | s
    · trivial
    · exact ⟨trivial, trivial⟩

namespace Template

variable (t : Template) (scope : Scope) (e : Expr)

theorem emitted_follows (mode : EmitMode) (action : ActionId) :
    Follows t scope e (t.emitted scope e mode action) fun o => o.elim [] mode.nodes := by
  unfold emitted present
  rw [bind_assoc]
  refine follows_recover rfl fun v c => ?_
  cases mode with
  | json => exact .inl rfl
  | _ =>
    rcases hv : v.pageText? with _ | s <;> simp only [Option.elim, EmitMode.nodes, hv]
    · exact .inr ⟨rfl, _, rfl⟩
    · exact .inl rfl

theorem items_follows (action : ActionId) :
    Follows t scope e (t.items scope e action) fun o => (o.bind loopItems?).getD [] := by
  refine follows_recover rfl fun v c => ?_
  rcases hv : loopItems? v with _ | items <;> simp only [Option.bind_some, hv]
  · exact .inr ⟨rfl, _, rfl⟩
  · exact .inl rfl

theorem attributeValue_follows (action : ActionId) :
    Follows t scope e (t.attributeValue scope e action) fun o => o.bind attributeOf := by
  unfold attributeValue
  rw [map_eq_bind_pure_comp]
  exact follows_recover rfl fun v c => .inl rfl

theorem test_follows (negate : Bool) (action : ActionId) :
    Follows t scope e (t.test scope e negate action) fun o => o.map (·.truthy != negate) :=
  follows_recover rfl fun _ _ => .inl rfl

end Template

end LiveTemplate
