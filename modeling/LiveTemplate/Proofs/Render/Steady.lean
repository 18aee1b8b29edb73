/-
Expressions whose values do not depend on when they are evaluated. A plain expression calls no
method, only built-in functions, and looks at no identities. Its value is the same, up to identity,
in all contexts that agree on what it reads, and evaluating it leaves the state as it is but for
the supply of marks. So do the actions of a template whose expressions are plain.
-/
import LiveTemplate.Functions.Builtins
import LiveTemplate.Proofs.Expr.TwoRuns
import LiveTemplate.Proofs.Render.Outcome
import LiveTemplate.Proofs.Tree.Likeness

namespace LiveTemplate

/-! ## Plain expressions -/

/-- What the outermost form of a plain expression may be: no call of a method of the component or
of a function that is not built in, no comparison of identities, no search for one. -/
def Expr.PlainForm (functions : Functions) : Expr → Prop
  | .method .. => False
  | .function _ n _ => functions.get? n = builtins.get? n
  | .binary _ op l r => op.isEquality = true → l.isScalarLiteral = true ∨ r.isScalarLiteral = true
  | .call _ (.member _ _ p _) _ => p ≠ "includes" ∧ p ≠ "indexOf"
  | _ => True

/-- An expression all of whose parts are plain. -/
def Expr.Plain (functions : Functions) (e : Expr) : Prop :=
  ∀ x ∈ e.subterms, x.PlainForm functions

/-- The expressions that an instruction evaluates. -/
def Instr.exprs : Instr → List Expr
  | setAttributeExpr _ e _ | emit e _ _ | branch e _ _ | openLoop _ _ e _ => [e]
  | _ => []

/-- A template that evaluates plain expressions only when it renders. -/
def Template.Plain (t : Template) : Prop :=
  ∀ instr ∈ t.program.instrs.toList, ∀ e ∈ instr.exprs, e.Plain t.functions

theorem Expr.Plain.tame {functions : Functions} {e : Expr} (h : e.Plain functions) :
    ∀ x ∈ e.subterms, x.Tame .likeness functions.get? := by
  intro x hx
  have hp := h x hx
  unfold PlainForm at hp
  unfold Tame
  split
  · exact hp
  · intro f hf
    rw [hp] at hf
    exact Similarity.builtins_respect hf
  · exact fun he => .inr (hp he)
  · exact .inr hp
  · trivial

theorem Template.Plain.expr {t : Template} (h : t.Plain) {pc : Nat} {instr : Instr} {e : Expr}
    (hi : t.program.instrs[pc]? = some instr) (he : e ∈ instr.exprs) : e.Plain t.functions :=
  h instr (Array.mem_toList_iff.2 (Array.mem_of_getElem? hi)) e he

/-! ## Contexts -/

namespace Context

/-- Contexts that hold like values. -/
structure Like (c c' : Context) : Prop where
  state : c.state.value.Like c'.state.value
  props : c.props.Like c'.props

/-- Contexts that hold like values in all that is read. -/
structure AgreeOn (reads : Reads) (c c' : Context) : Prop where
  state : State.AgreeOn .likeness reads c.state c'.state
  props : c.props.Like c'.props

/-- A context after evaluations: nothing was written, though collections may have been made and
handlers been registered. -/
structure Keeps (c c' : Context) : Prop where
  state : ∃ supply, c'.state = { c.state with supply }
  props : c'.props = c.props
  methods : c'.methods = c.methods

variable {c c' c'' c₀ : Context}

theorem Like.agreeOn (h : c.Like c') (reads : Reads) : AgreeOn reads c c' where
  state := ⟨fun f _ => get?_rel (Value.Like.map_iff.1 h.state) f, fun _ => h.state⟩
  props := h.props

namespace Keeps

theorem refl (c : Context) : c.Keeps c := ⟨⟨c.state.supply, rfl⟩, rfl, rfl⟩

theorem trans (h : c.Keeps c') (h' : c'.Keeps c'') : c.Keeps c'' := by
  obtain ⟨supply, hs⟩ := h.state
  obtain ⟨supply', hs'⟩ := h'.state
  refine ⟨⟨supply', ?_⟩, h'.props.trans h.props, h'.methods.trans h.methods⟩
  rw [hs', hs]

theorem like (h : c.Keeps c') (hc : c.Like c₀) : c'.Like c₀ := by
  obtain ⟨supply, hs⟩ := h.state
  exact ⟨by rw [hs]; exact hc.state, by rw [h.props]; exact hc.props⟩

end Keeps

end Context

/-! ## Values -/

variable {t : Template} {c c' : Context} {scope scope' : Scope} {e : Expr}

theorem envRel (hp : c.props.Like c'.props) (hs : Scope.Like scope scope') :
    Similarity.likeness.EnvRel (c.env t t.source scope) (c'.env t t.source scope') where
  source := rfl
  functions := rfl
  props := hp
  scope := hs.imp fun _ _ h => ⟨h.name, h.isIndex, h.value⟩

/-- A plain expression has like values where all that it reads is alike. -/
theorem Template.value?_like (hp : e.Plain t.functions) (hc : c.AgreeOn e.reads c')
    (hs : Scope.Like scope scope') :
    Option.Rel Value.Like (t.value? c scope e) (t.value? c' scope' e) := by
  obtain ⟨-, -, -, -, -, ho⟩ := Similarity.eval_agrees (envRel (t := t) hc.props hs) hp.tame hc.state
    c.state.supply c'.state.supply trivial
  have outcome : Outcome Value.Like (e.eval (c.env t t.source scope) c.state).1
      (e.eval (c'.env t t.source scope') c'.state).1 := ho
  unfold Template.value?
  generalize (e.eval (c.env t t.source scope) c.state).1 = x at outcome
  generalize (e.eval (c'.env t t.source scope') c'.state).1 = y at outcome
  cases outcome with
  | ok h => exact .some h
  | error _ => exact .none

/-- What depends on the value of a plain expression, where likeness of values does, corresponds in
contexts that agree on what is read. -/
theorem Template.value?_rel {α : Type} {R : α → α → Prop} {f : Option Value → α}
    (hn : R (f none) (f none)) (hf : ∀ v w, v.Like w → R (f (some v)) (f (some w)))
    (hp : e.Plain t.functions) (hc : c.AgreeOn e.reads c') (hs : Scope.Like scope scope') :
    R (f (t.value? c scope e)) (f (t.value? c' scope' e)) := by
  have hv := t.value?_like hp hc hs
  generalize t.value? c scope e = x at hv ⊢
  generalize t.value? c' scope' e = y at hv ⊢
  cases hv with
  | some h => exact hf _ _ h
  | none => exact hn

/-- What follows a plain expression writes nothing. -/
theorem Follows.keeps {α : Type} {m : StateM Context α} {f : Option Value → α}
    (h : Follows t scope e m f) (hp : e.Plain t.functions) (c : Context) : c.Keeps (m c).2 := by
  obtain ⟨diagnostics, hm⟩ := h.context c
  have same : c.Like c := ⟨.refl _, .refl _⟩
  obtain ⟨supply, -, -, hs, -, -⟩ := Similarity.eval_agrees
    (envRel (t := t) same.props (.refl scope)) hp.tame (same.agreeOn e.reads).state
    c.state.supply c.state.supply trivial
  rw [hm]
  exact ⟨⟨supply, hs⟩, rfl, rfl⟩

/-! ## What is made of like values -/

theorem EmitMode.nodes_congr (mode : EmitMode) {v w : Value} (h : v.Like w) :
    mode.nodes v = mode.nodes w := by
  cases mode <;> simp only [nodes, h.view Value.pageText? Value.pageText?_contents,
    h.view (Json.pretty "") (Json.pretty_contents "")]

theorem attributeOf_congr {v w : Value} (h : v.Like w) :
    Template.attributeOf v = Template.attributeOf w := by
  rcases h.shape with ⟨rfl, -⟩ | ⟨m, m', xs, ys, rfl, rfl⟩ | ⟨m, m', xs, ys, rfl, rfl⟩
  · rfl
  · simp only [Template.attributeOf, h.view Value.display Value.display_contents]
  · simp only [Template.attributeOf, h.view Value.display Value.display_contents]

mutual

theorem Node.Like.static : ∀ {a b : Node}, a.Like b → b.Static → a.Static
  | .text _, .text _, _, _ | .html _, .html _, _, _ => trivial
  | .element e _, .element f _, ⟨he, hc⟩, ⟨hb, hs⟩ => by
    refine ⟨?_, Nodes.Like.static hc hs⟩
    have bindings := he.bindings
    rw [hb] at bindings
    exact List.forall₂_nil_right_iff.1 bindings
  | .block .., .block .., _, h => h.elim

theorem Nodes.Like.static : ∀ {xs ys : List Node}, Nodes.Like xs ys → Nodes.Static ys →
    Nodes.Static xs
  | [], [], _, _ => trivial
  | _ :: _, _ :: _, ⟨h, hr⟩, ⟨hs, hsr⟩ => ⟨h.static hs, Nodes.Like.static hr hsr⟩

end

/-- Items at the same key and position with like values. -/
structure LoopItem.Like (x y : LoopItem) : Prop where
  key : x.key = y.key
  value : x.value.Like y.value
  position : x.position = y.position

theorem loopItems_like {v w : Value} (h : v.Like w) :
    Option.Rel (List.Forall₂ LoopItem.Like) (loopItems? v) (loopItems? w) := by
  rcases Similarity.likeness.shape h with
    ⟨rfl, hc⟩ | ⟨m, m', xs, ys, rfl, rfl, hi⟩ | ⟨m, m', xs, ys, rfl, rfl, he⟩
  · cases v with
    | list | map => cases hc
    | null => exact .some .nil
    | _ => exact .none
  · refine .some ?_
    show List.Forall₂ _ ((xs.zipIdx 0).map _) ((ys.zipIdx 0).map _)
    generalize 0 = n
    clear h
    induction hi generalizing n with
    | nil => exact .nil
    | cons hv _ ih => exact .cons ⟨rfl, hv, rfl⟩ (ih (n + 1))
  · refine .some ?_
    show List.Forall₂ _ ((xs.zipIdx 0).map _) ((ys.zipIdx 0).map _)
    generalize 0 = n
    clear h
    induction he generalizing n with
    | nil => exact .nil
    | cons he _ ih => exact .cons ⟨congrArg some he.1, he.2, rfl⟩ (ih (n + 1))

namespace Template

variable (hp : e.Plain t.functions) (hc : c.AgreeOn e.reads c') (hs : Scope.Like scope scope')

include hp hc hs

theorem emitted_congr (mode : EmitMode) :
    (t.value? c scope e).elim [] mode.nodes = (t.value? c' scope' e).elim [] mode.nodes :=
  value?_rel (R := Eq) (f := fun o => o.elim [] mode.nodes) rfl (fun _ _ => mode.nodes_congr) hp hc hs

theorem attribute_congr :
    (t.value? c scope e).bind attributeOf = (t.value? c' scope' e).bind attributeOf :=
  value?_rel (R := Eq) (f := fun o => o.bind attributeOf) rfl (fun _ _ => attributeOf_congr) hp hc hs

theorem test_congr (negate : Bool) :
    (t.value? c scope e).map (·.truthy != negate) = (t.value? c' scope' e).map (·.truthy != negate) :=
  value?_rel (R := Eq) (f := fun o => o.map (·.truthy != negate)) rfl
    (fun _ _ h => by rw [Option.map_some, h.view Value.truthy Value.truthy_contents]; rfl) hp hc hs

theorem items_like :
    List.Forall₂ LoopItem.Like (((t.value? c scope e).bind loopItems?).getD [])
      (((t.value? c' scope' e).bind loopItems?).getD []) := by
  refine value?_rel (f := fun o => (o.bind loopItems?).getD []) .nil (fun v w h => ?_) hp hc hs
  have items := loopItems_like h
  simp only [Option.bind_some]
  generalize loopItems? v = x at items ⊢
  generalize loopItems? w = y at items ⊢
  cases items with
  | some h => exact h
  | none => exact .nil

end Template

theorem LoopBinding.bind_like (b : LoopBinding) {x y : LoopItem} (h : x.Like y) :
    Scope.Like (b.bind x) (b.bind y) := by
  obtain ⟨key, v, i⟩ := x
  obtain ⟨_, w, _⟩ := y
  obtain ⟨rfl, hv, rfl⟩ := h
  have value (p : String) : Var.Like ⟨p, v, false⟩ ⟨p, w, false⟩ := ⟨rfl, rfl, hv, nofun⟩
  unfold LoopBinding.bind
  rcases b.params with _ | ⟨p, _ | ⟨q, _ | ⟨r, more⟩⟩⟩
  · exact .nil
  · exact .cons (value p) (Scope.Like.refl _)
  · rcases key with _ | key
    · exact .cons (value p) (Scope.Like.refl _)
    · exact .cons (.refl _) (.cons (value q) .nil)
  · exact .cons (.refl _) (.cons (value q) (Scope.Like.refl _))

/-- The handler of a listener as it is up to the number of its token. -/
def HandlerSource.shown (handler : HandlerSource) (scope : Scope) : Handler :=
  if handler.onlyIndices scope then .inline (handler.expr.substitute (handler.capture scope)).print
  else .token 0

/-- The code of a handler stands for the same indices in like scopes. -/
theorem HandlerSource.shown_congr (handler : HandlerSource) (h : Scope.Like scope scope') :
    handler.shown scope = handler.shown scope' := by
  have found (name : String) := Similarity.find?_rel (fun _ _ => Var.Like.name) h name
  have indices : handler.onlyIndices scope = handler.onlyIndices scope' := by
    unfold onlyIndices
    congr 1
    funext name
    have hf := found name
    generalize scope.find? name = x at hf ⊢
    generalize scope'.find? name = y at hf ⊢
    cases hf with
    | some hv => exact hv.isIndex
    | none => rfl
  unfold shown
  rw [← indices]
  by_cases hi : handler.onlyIndices scope = true
  · have captured : handler.capture scope = handler.capture scope' := by
      refine List.map_congr_left fun name hn => ?_
      have index := List.all_eq_true.1 hi name hn
      have hf := found name
      generalize scope.find? name = x at hf index ⊢
      generalize scope'.find? name = y at hf ⊢
      cases hf with
      | some hv => exact congrArg (name, ·) (hv.index index)
      | none => rfl
    rw [if_pos hi, if_pos hi, captured]
  · rw [if_neg hi, if_neg hi]

theorem HandlerSource.attach_shown (handler : HandlerSource) (scope : Scope) (c : Context) :
    (handler.attach scope c).1.Like (handler.shown scope) ∧ c.Keeps (handler.attach scope c).2 := by
  unfold attach shown
  by_cases hi : handler.onlyIndices scope = true
  · simp only [if_pos hi]
    exact ⟨rfl, .refl c⟩
  · simp only [if_neg hi]
    exact ⟨trivial, ⟨c.state.supply, rfl⟩, rfl, rfl⟩

end LiveTemplate
