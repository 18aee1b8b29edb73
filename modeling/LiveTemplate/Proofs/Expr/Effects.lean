/-
What evaluations have if their steps have it. An evaluation is put together from a few kinds of steps,
so a property of computations that goes along from one step to the next, and that each step has at its
place, is one of the whole evaluation. One such property is about the state: an expression writes by
calling methods of the component only, and it draws marks from the supply; so the state moves along
any preorder along which the methods and the supply move it.
-/
import LiveTemplate.Expr.Eval
import LiveTemplate.Proofs.Computation
import LiveTemplate.Proofs.Expr.Reads

namespace LiveTemplate

/-! ## Closed properties -/

/-- A property of computations that is closed under what an evaluation is put together from, where the
places in question are those that it may refer to. -/
structure Env.Closed (env : Env) (places : Span → Prop) (P : ∀ {α : Type}, Effect α → Prop) : Prop where
  pure : ∀ {α : Type} (a : α), P (Pure.pure a : Effect α)
  bind : ∀ {α β : Type} {m : Effect α} {f : α → Effect β}, P m → (∀ a, P (f a)) → P (m >>= f)
  fail : ∀ {α : Type} (cause : Cause) {span : Span}, places span → P (env.fail cause span : Effect α)
  read : P (get : Effect State)
  alloc : ∀ {α : Type} (make : Fresh α), P (State.alloc make)
  method : ∀ {name method}, env.methods name = some method → ∀ args {span : Span}, places span →
    P (env.within span (method args))
  function : ∀ {name f}, env.functions name = some f → ∀ args {span : Span}, places span →
    P (env.callFunction (f args) span)
  valueMethod : ∀ (v : Value) (name : String) (args : List Value) {span : Span}, places span →
    P (env.callFunction (v.callMethod name args) span)

namespace Env.Closed

variable {env : Env} {places : Span → Prop} {P : ∀ {α : Type}, Effect α → Prop}

/-- The variables in scope do not matter. -/
theorem withScope (h : env.Closed places P) (scope : Scope) :
    Env.Closed { env with scope } places P :=
  ⟨h.pure, h.bind, h.fail, h.read, h.alloc, h.method, h.function, h.valueMethod⟩

theorem root (h : env.Closed places P) {span : Span} (hs : places span) : ∀ root : Root,
    P (env.root span root)
  | .state => h.bind h.read fun _ => h.pure _
  | .props => h.pure _
  | .component => h.bind h.read fun _ => h.alloc _
  | .bound name => by
    dsimp only [Env.root]
    split
    · exact h.pure _
    · exact h.fail _ hs
  | .field name => by
    refine h.bind h.read fun s => ?_
    split
    · exact h.pure _
    · exact h.fail _ hs

theorem member (h : env.Closed places P) (object : Value) (property : String) {span : Span}
    (hs : places span) : P (env.member object property span) := by
  unfold Env.member
  split
  · exact h.fail _ hs
  · exact h.pure _
  · exact h.pure _

theorem index (h : env.Closed places P) (object i : Value) {span : Span} (hs : places span) :
    P (env.index object i span) := by
  unfold Env.index
  split
  · exact h.fail _ hs
  · exact h.pure _
  · exact h.pure _
  · exact h.pure _
  · split <;> exact h.pure _
  · exact h.pure _

theorem callMethod (h : env.Closed places P) (name : String) (args : List Value) {span : Span}
    (hs : places span) : P (env.callMethod name args span) := by
  unfold Env.callMethod
  split
  next method found => exact h.method found args hs
  next => exact h.fail _ hs

mutual

/-- Evaluating an expression has a property that is closed, where all places in it are in question. -/
theorem chain (h : env.Closed places P) : ∀ e : Expr, (∀ x ∈ e.subterms, places x.span) →
    P (e.chain env)
  | .literal .., _ => h.pure _
  | .template _ parts, hp => by
    rw [Expr.subterms, List.forall_mem_cons] at hp
    rw [Expr.chain]
    exact h.bind (h.chainParts parts hp.2) fun _ => h.pure _
  | .name .., hp => h.fail _ (hp _ (Expr.mem_subterms_self _))
  | .self s, hp => h.bind (h.root (hp _ (Expr.mem_subterms_self _)) .component) fun _ => h.pure _
  | .root s r, hp => h.bind (h.root (hp _ (Expr.mem_subterms_self _)) r) fun _ => h.pure _
  | .member s o p optional, hp => by
    rw [Expr.subterms, List.forall_mem_cons] at hp
    rw [Expr.chain]
    refine h.bind (h.chain o hp.2) fun v => ?_
    cases v with
    | none => exact h.pure _
    | some v =>
      dsimp only
      split
      · exact h.pure _
      · exact h.bind (h.member v p hp.1) fun _ => h.pure _
  | .index s o i optional, hp => by
    rw [Expr.subterms, List.forall_mem_cons, List.forall_mem_append] at hp
    obtain ⟨hs, ho, hi⟩ := hp
    rw [Expr.chain]
    refine h.bind (h.chain o ho) fun v => ?_
    cases v with
    | none => exact h.pure _
    | some v =>
      dsimp only
      split
      · exact h.pure _
      · exact h.bind (h.chain i hi) fun _ => h.bind (h.index v _ hs) fun _ => h.pure _
  | .call _ (.member u o p optional) args, hp => by
    simp only [Expr.subterms, List.forall_mem_cons, List.forall_mem_append] at hp
    obtain ⟨-, ⟨hu, ho⟩, ha⟩ := hp
    rw [Expr.chain]
    refine h.bind (h.chain o ho) fun v => ?_
    cases v with
    | none => exact h.pure _
    | some v =>
      dsimp only
      split
      · exact h.pure _
      · split
        · exact h.fail _ hu
        · exact h.bind (h.chainAll args ha) fun args =>
            h.bind (h.valueMethod v p args hu) fun _ => h.pure _
  -- nothing else can be called, and the place is that of what should have been
  | .call _ (.literal ..) _, hp | .call _ (.template ..) _, hp | .call _ (.name ..) _, hp
  | .call _ (.self ..) _, hp | .call _ (.root ..) _, hp | .call _ (.index ..) _, hp
  | .call _ (.call ..) _, hp | .call _ (.method ..) _, hp | .call _ (.function ..) _, hp
  | .call _ (.unary ..) _, hp | .call _ (.binary ..) _, hp | .call _ (.conditional ..) _, hp
  | .call _ (.array ..) _, hp | .call _ (.object ..) _, hp | .call _ (.arrow ..) _, hp => by
    rw [Expr.subterms, List.forall_mem_cons, List.forall_mem_append] at hp
    simp only [Expr.chain]
    exact h.fail _ (hp.2.1 _ (Expr.mem_subterms_self _))
  | .method s n args, hp => by
    rw [Expr.subterms, List.forall_mem_cons] at hp
    rw [Expr.chain]
    exact h.bind (h.chainAll args hp.2) fun args => h.bind (h.callMethod n args hp.1) fun _ => h.pure _
  | .function s n args, hp => by
    rw [Expr.subterms, List.forall_mem_cons] at hp
    rw [Expr.chain]
    refine h.bind (h.chainAll args hp.2) fun args => ?_
    split
    next f found => exact h.bind (h.function found args hp.1) fun _ => h.pure _
    next => exact h.fail _ hp.1
  | .unary _ op e, hp => by
    rw [Expr.subterms, List.forall_mem_cons] at hp
    rw [Expr.chain]
    exact h.bind (h.chain e hp.2) fun _ => h.pure _
  | .binary _ op l r, hp => by
    rw [Expr.subterms, List.forall_mem_cons, List.forall_mem_append] at hp
    obtain ⟨-, hl, hr⟩ := hp
    rw [Expr.chain]
    refine h.bind (h.chain l hl) fun _ => ?_
    dsimp only
    split
    · exact h.pure _
    · exact h.bind (h.chain r hr) fun _ => h.pure _
  | .conditional _ c t e, hp => by
    simp only [Expr.subterms, List.forall_mem_cons, List.forall_mem_append] at hp
    obtain ⟨-, hc, ht, he⟩ := hp
    rw [Expr.chain]
    refine h.bind (h.chain c hc) fun _ => ?_
    split
    · exact h.bind (h.chain t ht) fun _ => h.pure _
    · exact h.bind (h.chain e he) fun _ => h.pure _
  | .array _ items, hp => by
    rw [Expr.subterms, List.forall_mem_cons] at hp
    rw [Expr.chain]
    exact h.bind (h.chainAll items hp.2) fun _ => h.bind (h.alloc _) fun _ => h.pure _
  | .object _ entries, hp => by
    rw [Expr.subterms, List.forall_mem_cons] at hp
    rw [Expr.chain]
    exact h.bind (h.chainEntries entries hp.2) fun _ => h.bind (h.alloc _) fun _ => h.pure _
  | .arrow .., hp => h.fail _ (hp _ (Expr.mem_subterms_self _))

theorem chainAll (h : env.Closed places P) : ∀ es : List Expr, (∀ x ∈ subtermsAll es, places x.span) →
    P (LiveTemplate.chainAll env es)
  | [], _ => h.pure _
  | e :: rest, hp => by
    obtain ⟨he, hr⟩ := List.forall_mem_append.1 hp
    exact h.bind (h.chain e he) fun _ => h.bind (h.chainAll rest hr) fun _ => h.pure _

theorem chainEntries (h : env.Closed places P) : ∀ es : List (String × Expr),
    (∀ x ∈ subtermsEntries es, places x.span) → P (LiveTemplate.chainEntries env es)
  | [], _ => h.pure _
  | (_, e) :: rest, hp => by
    obtain ⟨he, hr⟩ := List.forall_mem_append.1 hp
    exact h.bind (h.chain e he) fun _ => h.bind (h.chainEntries rest hr) fun _ => h.pure _

theorem chainParts (h : env.Closed places P) : ∀ parts : List TemplatePart,
    (∀ x ∈ subtermsParts parts, places x.span) → P (LiveTemplate.chainParts env parts)
  | [], _ => h.pure _
  | .text _ :: rest, hp => h.bind (h.chainParts rest hp) fun _ => h.pure _
  | .hole e :: rest, hp => by
    obtain ⟨he, hr⟩ := List.forall_mem_append.1 hp
    exact h.bind (h.chain e he) fun _ => h.bind (h.chainParts rest hr) fun _ => h.pure _

end

theorem eval (h : env.Closed places P) {e : Expr} (hp : ∀ x ∈ e.subterms, places x.span) :
    P (e.eval env) :=
  h.bind (h.chain e hp) fun _ => h.pure _

/-- Running a handler has a property that is closed. -/
theorem invoke (h : env.Closed places P) (event : Value) {e : Expr}
    (hp : ∀ x ∈ e.subterms, places x.span) : P (e.invoke env event) := by
  unfold Expr.invoke
  split
  · exact (h.withScope _).eval (List.forall_mem_cons.1 hp).2
  · split
    · exact h.callMethod _ _ (hp _ (Expr.mem_subterms_self _))
    · exact h.eval hp
  · exact h.eval hp

end Env.Closed

/-! ## The state -/

/-- A preorder on states that does not see the supply of marks. -/
structure StateOrder (R : State → State → Prop) : Prop where
  refl : ∀ s, R s s
  trans : ∀ {s s' s''}, R s s' → R s' s'' → R s s''
  supply : ∀ s n, R s { s with supply := n }

/-- A computation that moves the state along a preorder, also where it fails. -/
def Moves (R : State → State → Prop) {α : Type} (m : Effect α) : Prop := ∀ s, R s (m s).2

/-- All methods of an environment move the state along a preorder. -/
def Env.MethodsMove (env : Env) (R : State → State → Prop) : Prop :=
  ∀ name method, env.methods name = some method → ∀ args, Moves R (method args)

namespace StateOrder

variable {R : State → State → Prop} {α β : Type} {env : Env}

theorem pure (hR : StateOrder R) (a : α) : Moves R (Pure.pure a : Effect α) := hR.refl

theorem bind (hR : StateOrder R) {m : Effect α} {f : α → Effect β} (hm : Moves R m)
    (hf : ∀ a, Moves R (f a)) : Moves R (m >>= f) := by
  intro s
  have first := hm s
  rw [stateful_bind]
  generalize m s = result at first ⊢
  rcases result with ⟨e | a, s'⟩
  · exact first
  · exact hR.trans first (hf a s')

theorem alloc (hR : StateOrder R) (make : Fresh α) : Moves R (State.alloc make) :=
  fun s => hR.supply s _

/-- Moving the state along a preorder is closed if the methods move it so. -/
theorem closed (hR : StateOrder R) (hm : env.MethodsMove R) :
    env.Closed (fun _ => True) (Moves R) where
  pure := hR.pure
  bind := hR.bind
  fail _ _ _ := hR.refl
  read := hR.refl
  alloc := hR.alloc
  method found args _ _ := fun s => hm _ _ found args s
  function _ _ _ _ := fun s => hR.supply s _
  valueMethod _ _ _ _ _ := fun s => hR.supply s _

/-- Running a handler moves the state as the methods do. -/
theorem invoke (hR : StateOrder R) (hm : env.MethodsMove R) (event : Value) (e : Expr) :
    Moves R (e.invoke env event) :=
  (hR.closed hm).invoke event fun _ _ => trivial

end StateOrder

end LiveTemplate
