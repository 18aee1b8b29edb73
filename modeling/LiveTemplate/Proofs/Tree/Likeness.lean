/-
Rendered trees up to what a page does not show: the numbers of handler tokens, the identity of the
lists and maps that are kept as loop variables, and the order of the attributes of an element.
-/
import LiveTemplate.Proofs.Value.Similarity
import LiveTemplate.Tree.Basic

namespace LiveTemplate

/-! ## Relations between lists -/

theorem forall₂_symm {α : Type} {R : α → α → Prop} {xs ys : List α} (hxy : List.Forall₂ R xs ys)
    (h : ∀ a b, R a b → R b a) : List.Forall₂ R ys xs :=
  (hxy.imp h).flip

theorem forall₂_trans {α : Type} {R : α → α → Prop} {xs ys zs : List α}
    (hxy : List.Forall₂ R xs ys) (hyz : List.Forall₂ R ys zs)
    (h : ∀ a b c, R a b → R b c → R a c) : List.Forall₂ R xs zs := by
  induction hxy generalizing zs with
  | nil => exact hyz
  | cons hab _ ih =>
    cases hyz with
    | cons hbc hr => exact .cons (h _ _ _ hab hbc) (ih hr)

/-! ## Variables -/

/-- Variables that hold like values; an index holds the same one. -/
structure Var.Like (v w : Var) : Prop where
  name : v.name = w.name
  isIndex : v.isIndex = w.isIndex
  value : v.value.Like w.value
  index : v.isIndex = true → v.value = w.value

namespace Var.Like

variable {u v w : Var}

theorem refl (v : Var) : v.Like v := ⟨rfl, rfl, .refl _, fun _ => rfl⟩

theorem symm (h : v.Like w) : w.Like v :=
  ⟨h.name.symm, h.isIndex.symm, h.value.symm, fun hw => (h.index (h.isIndex.trans hw)).symm⟩

theorem trans (h : u.Like v) (h' : v.Like w) : u.Like w :=
  ⟨h.name.trans h'.name, h.isIndex.trans h'.isIndex, h.value.trans h'.value,
    fun hu => (h.index hu).trans (h'.index (h.isIndex ▸ hu))⟩

end Var.Like

/-- Scopes with like variables. -/
abbrev Scope.Like : Scope → Scope → Prop := List.Forall₂ Var.Like

namespace Scope.Like

variable {a b c : Scope}

theorem refl (a : Scope) : Scope.Like a a := List.forall₂_same.2 fun v _ => .refl v

theorem symm (h : Scope.Like a b) : Scope.Like b a := forall₂_symm h fun _ _ => Var.Like.symm

theorem trans (h : Scope.Like a b) (h' : Scope.Like b c) : Scope.Like a c :=
  forall₂_trans h h' fun _ _ _ => Var.Like.trans

end Scope.Like

/-! ## Elements -/

/-- The same code, or two tokens. -/
def Handler.Like : Handler → Handler → Prop
  | inline a, inline b => a = b
  | token _, token _ => True
  | _, _ => False

theorem Handler.Like.refl : ∀ a : Handler, a.Like a
  | .inline _ => rfl
  | .token _ => trivial

theorem Handler.Like.symm : ∀ {a b : Handler}, a.Like b → b.Like a
  | .inline _, .inline _, h => Eq.symm h
  | .token _, .token _, _ => trivial

theorem Handler.Like.trans : ∀ {a b c : Handler}, a.Like b → b.Like c → a.Like c
  | .inline _, .inline _, .inline _, h, h' => Eq.trans h h'
  | .token _, .token _, .token _, _, _ => trivial

def EventBinding.Like (a b : EventBinding) : Prop := a.event = b.event ∧ a.handler.Like b.handler

/-- Bindings of one instruction, in like scopes. -/
structure AttributeBinding.Like (a b : AttributeBinding) : Prop where
  action : a.action = b.action
  pc : a.pc = b.pc
  scope : Scope.Like a.scope b.scope

theorem EventBinding.Like.trans {a b c : EventBinding} (h : a.Like b) (h' : b.Like c) : a.Like c :=
  ⟨h.1.trans h'.1, h.2.trans h'.2⟩

theorem AttributeBinding.Like.trans {a b c : AttributeBinding} (h : a.Like b) (h' : b.Like c) :
    a.Like c :=
  ⟨h.action.trans h'.action, h.pc.trans h'.pc, Scope.Like.trans h.scope h'.scope⟩

structure Element.Like (e f : Element) : Prop where
  tag : e.tag = f.tag
  key : e.key = f.key
  attrs : e.attrs.Perm f.attrs
  events : List.Forall₂ EventBinding.Like e.events f.events
  bindings : List.Forall₂ AttributeBinding.Like e.bindings f.bindings

namespace Element.Like

variable {d e f : Element}

theorem refl (e : Element) : e.Like e where
  tag := rfl
  key := rfl
  attrs := .refl _
  events := List.forall₂_same.2 fun _ _ => ⟨rfl, .refl _⟩
  bindings := List.forall₂_same.2 fun _ _ => ⟨rfl, rfl, .refl _⟩

theorem symm (h : e.Like f) : f.Like e where
  tag := h.tag.symm
  key := h.key.symm
  attrs := h.attrs.symm
  events := forall₂_symm h.events fun _ _ h => ⟨h.1.symm, h.2.symm⟩
  bindings := forall₂_symm h.bindings fun _ _ h =>
    ⟨h.action.symm, h.pc.symm, Scope.Like.symm h.scope⟩

theorem trans (h : d.Like e) (h' : e.Like f) : d.Like f where
  tag := h.tag.trans h'.tag
  key := h.key.trans h'.key
  attrs := h.attrs.trans h'.attrs
  events := forall₂_trans h.events h'.events fun _ _ _ => EventBinding.Like.trans
  bindings := forall₂_trans h.bindings h'.bindings fun _ _ _ => AttributeBinding.Like.trans

end Element.Like

/-! ## Trees -/

/-- One place in the code, in like scopes. -/
structure Anchor.Like (a b : Anchor) : Prop where
  action : a.action = b.action
  start : a.start = b.start
  stop : a.stop = b.stop
  scope : Scope.Like a.scope b.scope

mutual

/-- Nodes that show the same and can be brought up to date the same way. -/
def Node.Like : Node → Node → Prop
  | .text a, .text b => a = b
  | .html a, .html b => a = b
  | .element e xs, .element f ys => e.Like f ∧ Nodes.Like xs ys
  | .block a xs, .block b ys => a.Like b ∧ Nodes.Like xs ys
  | _, _ => False

def Nodes.Like : List Node → List Node → Prop
  | [], [] => True
  | x :: xs, y :: ys => x.Like y ∧ Nodes.Like xs ys
  | _, _ => False

end

mutual

theorem Node.Like.refl : ∀ n : Node, n.Like n
  | .text _ | .html _ => rfl
  | .element e children => ⟨.refl e, Nodes.Like.refl children⟩
  | .block a children => ⟨⟨rfl, rfl, rfl, .refl a.scope⟩, Nodes.Like.refl children⟩

theorem Nodes.Like.refl : ∀ nodes : List Node, Nodes.Like nodes nodes
  | [] => trivial
  | n :: rest => ⟨Node.Like.refl n, Nodes.Like.refl rest⟩

end

mutual

theorem Node.Like.symm : ∀ {a b : Node}, a.Like b → b.Like a
  | .text _, .text _, h | .html _, .html _, h => Eq.symm h
  | .element .., .element .., ⟨he, hc⟩ => ⟨he.symm, Nodes.Like.symm hc⟩
  | .block .., .block .., ⟨ha, hc⟩ =>
    ⟨⟨ha.action.symm, ha.start.symm, ha.stop.symm, Scope.Like.symm ha.scope⟩,
      Nodes.Like.symm hc⟩

theorem Nodes.Like.symm : ∀ {xs ys : List Node}, Nodes.Like xs ys → Nodes.Like ys xs
  | [], [], _ => trivial
  | _ :: _, _ :: _, ⟨h, hr⟩ => ⟨h.symm, Nodes.Like.symm hr⟩

end

mutual

theorem Node.Like.trans : ∀ {a b c : Node}, a.Like b → b.Like c → a.Like c
  | .text _, .text _, .text _, h, h' | .html _, .html _, .html _, h, h' => Eq.trans h h'
  | .element .., .element .., .element .., ⟨he, hc⟩, ⟨he', hc'⟩ =>
    ⟨he.trans he', Nodes.Like.trans hc hc'⟩
  | .block .., .block .., .block .., ⟨ha, hc⟩, ⟨ha', hc'⟩ =>
    ⟨⟨ha.action.trans ha'.action, ha.start.trans ha'.start, ha.stop.trans ha'.stop,
      Scope.Like.trans ha.scope ha'.scope⟩, Nodes.Like.trans hc hc'⟩

theorem Nodes.Like.trans : ∀ {xs ys zs : List Node},
    Nodes.Like xs ys → Nodes.Like ys zs → Nodes.Like xs zs
  | [], [], [], _, _ => trivial
  | _ :: _, _ :: _, _ :: _, ⟨h, hr⟩, ⟨h', hr'⟩ => ⟨h.trans h', Nodes.Like.trans hr hr'⟩

end

namespace Nodes.Like

theorem append : ∀ {a b c d : List Node}, Nodes.Like a c → Nodes.Like b d →
    Nodes.Like (a ++ b) (c ++ d)
  | [], _, [], _, _, h => h
  | _ :: _, _, _ :: _, _, ⟨h, hr⟩, h' => ⟨h, append hr h'⟩

/-- Nodes like two lists one after the other are such lists themselves. -/
theorem split : ∀ {nodes b c : List Node}, Nodes.Like nodes (b ++ c) →
    ∃ xs ys, nodes = xs ++ ys ∧ Nodes.Like xs b ∧ Nodes.Like ys c
  | nodes, [], _, h => ⟨[], nodes, rfl, trivial, h⟩
  | n :: _, _ :: _, _, ⟨h, hr⟩ => by
    obtain ⟨xs, ys, rfl, hx, hy⟩ := split hr
    exact ⟨n :: xs, ys, rfl, ⟨h, hx⟩, hy⟩

end Nodes.Like

end LiveTemplate
