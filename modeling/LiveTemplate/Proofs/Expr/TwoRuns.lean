/-
Evaluating an expression twice. Two runs in environments and states that correspond, as far as the
expression reads them, end the same way: with related values or with the same error. Neither run
changes its state, the supply of marks apart. With equality for the correspondence this says that
an expression depends on nothing but the fields it is said to read.

The proof goes by induction over the expression; an access to the state by a known name is treated
apart, since there only the named field is known to agree and not the state as a whole.
-/
import LiveTemplate.Expr.Eval
import LiveTemplate.Proofs.Expr.Reads
import LiveTemplate.Proofs.Functions.Similarity

namespace LiveTemplate

/-! ## Computations in two runs -/

/-- From the two states, with any related supplies, both computations keep the state but for the
supply and have related outcomes. -/
def Similarity.Agrees (sim : Similarity) (s s' : State) {α β : Type} (r : α → β → Prop)
    (m : Effect α) (m' : Effect β) : Prop :=
  ∀ n n', sim.supplies n n' → ∃ k k', sim.supplies k k' ∧
    (m { s with supply := n }).2 = { s with supply := k } ∧
    (m' { s' with supply := n' }).2 = { s' with supply := k' } ∧
    Outcome r (m { s with supply := n }).1 (m' { s' with supply := n' }).1

namespace Similarity

variable {sim : Similarity} {s s' : State} {α β γ δ : Type} {r : α → β → Prop} {q : γ → δ → Prop}

theorem agrees_pure {a : α} {b : β} (h : r a b) :
    sim.Agrees s s' r (pure a : Effect α) (pure b : Effect β) :=
  fun n n' hn => ⟨n, n', hn, rfl, rfl, .ok h⟩

theorem agrees_throw (e : Error) :
    sim.Agrees s s' r (throw e : Effect α) (throw e : Effect β) :=
  fun n n' hn => ⟨n, n', hn, rfl, rfl, .error e⟩

theorem Agrees.bind {m : Effect α} {m' : Effect β} {f : α → Effect γ} {f' : β → Effect δ}
    (h : sim.Agrees s s' r m m') (hf : ∀ {a b}, r a b → sim.Agrees s s' q (f a) (f' b)) :
    sim.Agrees s s' q (m >>= f) (m' >>= f') := by
  intro n n' hn
  obtain ⟨k, k', hk, hs, hs', ho⟩ := h n n' hn
  rw [stateful_bind, stateful_bind]
  rcases hm : m { s with supply := n } with ⟨x, t⟩
  rcases hm' : m' { s' with supply := n' } with ⟨y, t'⟩
  rw [hm] at hs ho
  rw [hm'] at hs' ho
  subst hs hs'
  cases ho with
  | ok hab => exact hf hab k k' hk
  | error e => exact ⟨k, k', hk, rfl, rfl, .error e⟩

/-- Results that only have to be wrapped up. -/
theorem Agrees.map {m : Effect α} {m' : Effect β} {f : α → γ} {f' : β → δ}
    (h : sim.Agrees s s' r m m') (hf : ∀ {a b}, r a b → q (f a) (f' b)) :
    sim.Agrees s s' q (do return f (← m)) (do return f' (← m')) :=
  h.bind fun hab => agrees_pure (hf hab)

theorem agrees_alloc {m : Fresh α} {m' : Fresh β} (h : sim.Makes r m m') :
    sim.Agrees s s' r (State.alloc m) (State.alloc m') := by
  intro n n' hn
  obtain ⟨hr, hk⟩ := h n n' hn
  exact ⟨(m n).2, (m' n').2, hk, rfl, rfl, .ok hr⟩

/-- Scopes with corresponding variables have corresponding innermost variables of a name. -/
theorem find?_rel {R : Var → Var → Prop} (hR : ∀ v w, R v w → v.name = w.name)
    {scope scope' : Scope} (h : List.Forall₂ R scope scope') (name : String) :
    Option.Rel R (scope.find? name) (scope'.find? name) := by
  unfold Scope.find?
  have hr := List.rel_reverse h
  generalize scope.reverse = xs at hr
  generalize scope'.reverse = ys at hr
  induction hr with
  | nil => exact .none
  | cons hab _ ih =>
    rw [List.find?_cons, List.find?_cons, hR _ _ hab]
    split
    · exact .some hab
    · exact ih

/-- The variables of two runs: the same names with related values. -/
def VarRel (sim : Similarity) (v w : Var) : Prop :=
  v.name = w.name ∧ v.isIndex = w.isIndex ∧ sim.rel v.value w.value

/-- The environments of two runs: the same source and functions, related props and variables. -/
structure EnvRel (sim : Similarity) (env env' : Env) : Prop where
  source : env.source = env'.source
  functions : env.functions = env'.functions
  props : sim.rel env.props env'.props
  scope : List.Forall₂ sim.VarRel env.scope env'.scope

variable {env env' : Env}

theorem agrees_fail (h : sim.EnvRel env env') (cause : Cause) (span : Span) :
    sim.Agrees s s' r (env.fail cause span : Effect α) (env'.fail cause span : Effect β) := by
  unfold Env.fail
  rw [h.source]
  exact agrees_throw _

theorem agrees_callFunction (h : sim.EnvRel env env') {m m' : ExceptT Error Fresh Value}
    (hm : sim.Yields sim.rel m m') (span : Span) :
    sim.Agrees s s' sim.rel (env.callFunction m span) (env'.callFunction m' span) := by
  intro n n' hn
  obtain ⟨ho, hk⟩ := hm n n' hn
  refine ⟨(m n).2, (m' n').2, hk, rfl, rfl, ?_⟩
  show Outcome sim.rel ((m n).1.mapError _) ((m' n').1.mapError _)
  rw [h.source]
  generalize (m n).1 = x at ho
  generalize (m' n').1 = y at ho
  cases ho with
  | ok hab => exact .ok hab
  | error e => exact .error _

/-! ## Entries -/

theorem getD_rel {x y : Option Value} (h : Option.Rel sim.rel x y) :
    sim.rel (x.getD .null) (y.getD .null) := by
  cases h with
  | some hv => exact hv
  | none => exact sim.refl _

theorem insert_rel {xs ys : Entries} (key : String) {v w : Value} (hv : sim.rel v w)
    (h : List.Forall₂ (EntryRel sim.rel) xs ys) :
    List.Forall₂ (EntryRel sim.rel) (Entries.insert key v xs) (Entries.insert key w ys) := by
  induction h with
  | nil => exact .cons ⟨rfl, hv⟩ .nil
  | @cons e f _ _ hef hr ih =>
    obtain ⟨k, u⟩ := e
    obtain ⟨k', u'⟩ := f
    obtain ⟨rfl, hu⟩ := hef
    unfold Entries.insert
    split
    · exact .cons ⟨rfl, hv⟩ hr
    · exact .cons ⟨rfl, hu⟩ ih

theorem foldl_insert_rel {xs ys : Entries} (h : List.Forall₂ (EntryRel sim.rel) xs ys)
    {init init' : Entries} (hi : List.Forall₂ (EntryRel sim.rel) init init') :
    List.Forall₂ (EntryRel sim.rel) (xs.foldl (fun m (k, v) => Entries.insert k v m) init)
      (ys.foldl (fun m (k, v) => Entries.insert k v m) init') := by
  induction h generalizing init init' with
  | nil => exact hi
  | @cons e f _ _ hef _ ih =>
    obtain ⟨k, v⟩ := e
    obtain ⟨k', w⟩ := f
    obtain ⟨rfl, hv⟩ := hef
    exact ih (insert_rel k hv hi)

/-- The entries of related values that are maps, none for others. -/
theorem map?_rel {v w : Value} (h : sim.rel v w) :
    List.Forall₂ (EntryRel sim.rel) (v.map?.getD []) (w.map?.getD []) := by
  rcases sim.shape h with ⟨rfl, hc⟩ | ⟨m, m', xs, ys, rfl, rfl, -⟩ | ⟨m, m', xs, ys, rfl, rfl, he⟩
  · cases v with
    | list | map => cases hc
    | _ => exact .nil
  · exact .nil
  · exact he

theorem value_get?_rel {v w : Value} (h : sim.rel v w) (key : String) :
    Option.Rel sim.rel (v.get? key) (w.get? key) := by
  rcases sim.shape h with ⟨rfl, hc⟩ | ⟨m, m', xs, ys, rfl, rfl, -⟩ | ⟨m, m', xs, ys, rfl, rfl, he⟩
  · cases v with
    | list | map => cases hc
    | _ => exact .none
  · exact .none
  · exact get?_rel he key

/-! ## Accesses and operators -/

/-- A value that was looked for, where it may be missing in both runs. -/
theorem agrees_found (h : sim.EnvRel env env') (cause : Cause) (span : Span)
    {x y : Option Value} : Option.Rel sim.rel x y →
    sim.Agrees s s' sim.rel
      (match x with
        | some v => return v
        | none => env.fail cause span)
      (match y with
        | some v => return v
        | none => env'.fail cause span) := by
  intro hxy
  cases hxy with
  | some hv => exact agrees_pure hv
  | none => exact agrees_fail h cause span

theorem agrees_root (h : sim.EnvRel env env') (span : Span) (root : Root)
    (hs : State.AgreeOn sim (Expr.root span root).reads s s') :
    sim.Agrees s s' sim.rel (env.root span root) (env'.root span root) := by
  cases root with
  | state => exact fun n n' hn => ⟨n, n', hn, rfl, rfl, .ok (hs.whole rfl)⟩
  | props => exact agrees_pure h.props
  | component =>
    have entries := foldl_insert_rel (sim.entries (hs.whole rfl)) (map?_rel h.props)
    intro n n' hn
    exact ⟨_, _, sim.next hn, rfl, rfl, .ok (sim.newMap hn entries)⟩
  | bound name =>
    have hv := find?_rel (fun _ _ h => h.1) h.scope name
    simp only [Env.root]
    generalize env.scope.find? name = x at hv
    generalize env'.scope.find? name = y at hv
    cases hv with
    | some hv => exact agrees_pure hv.2.2
    | none => exact agrees_fail h _ _
  | field name =>
    have field : Option.Rel sim.rel (s.entries.get? name <|> env.props.get? name)
        (s'.entries.get? name <|> env'.props.get? name) := by
      have hf := hs.fields name (List.mem_singleton.2 rfl)
      generalize s.entries.get? name = x at hf ⊢
      generalize s'.entries.get? name = y at hf ⊢
      cases hf with
      | some hv => exact .some hv
      | none => exact value_get?_rel h.props name
    exact fun n n' hn => agrees_found h (.undefinedName name) span field n n' hn

theorem agrees_member (h : sim.EnvRel env env') {v w : Value} (hv : sim.rel v w) (p : String)
    (span : Span) : sim.Agrees s s' sim.rel (env.member v p span) (env'.member w p span) := by
  have property := sim.view (Value.property? · p) (Value.property?_contents p) hv
  rcases sim.shape hv with ⟨rfl, hc⟩ | ⟨m, m', xs, ys, rfl, rfl, -⟩ | ⟨m, m', xs, ys, rfl, rfl, he⟩
  · cases v with
    | list | map => cases hc
    | null => exact agrees_fail h _ _
    | _ => exact agrees_pure (sim.refl _)
  · simp only [Env.member, property]
    exact agrees_pure (sim.refl _)
  · exact agrees_pure (getD_rel (get?_rel he p))

theorem items_rel {xs ys : List Value} (h : List.Forall₂ sim.rel xs ys) (n : Nat) :
    Option.Rel sim.rel xs[n]? ys[n]? := by
  induction h generalizing n with
  | nil => exact .none
  | cons hab _ ih =>
    cases n with
    | zero => exact .some hab
    | succ n => exact ih n

theorem agrees_index (h : sim.EnvRel env env') {v w i j : Value} (hv : sim.rel v w)
    (hi : sim.rel i j) (span : Span) :
    sim.Agrees s s' sim.rel (env.index v i span) (env'.index w j span) := by
  have hd := sim.view Value.display Value.display_contents hi
  have property name := sim.view (Value.property? · name) (Value.property?_contents name) hv
  rcases sim.shape hi with ⟨rfl, -⟩ | ⟨_, _, _, _, rfl, rfl, -⟩ | ⟨_, _, _, _, rfl, rfl, -⟩
  · -- the same scalar as an index, so the same position
    rcases sim.shape hv with ⟨rfl, hc⟩ | ⟨m, m', xs, ys, rfl, rfl, hx⟩ | ⟨m, m', xs, ys, rfl, rfl, he⟩
    · cases v with
      | list | map => cases hc
      | null => exact agrees_fail h _ _
      | _ =>
        cases hp : Env.position? i with
        | some n =>
          simp only [Env.index, hp]
          exact agrees_pure (sim.refl _)
        | none =>
          simp only [Env.index, hp]
          split <;> exact agrees_pure (sim.refl _)
    · cases hp : Env.position? i with
      | some n =>
        simp only [Env.index, hp]
        exact agrees_pure (getD_rel (items_rel hx n))
      | none =>
        simp only [Env.index, hp]
        cases i with
        | text name =>
          simp only [property]
          exact agrees_pure (sim.refl _)
        | _ => exact agrees_pure (sim.refl _)
    · exact agrees_pure (getD_rel (get?_rel he _))
  all_goals
    -- a collection as an index names no position and no property
    rcases sim.shape hv with ⟨rfl, hc⟩ | ⟨m, m', xs, ys, rfl, rfl, hx⟩ | ⟨m, m', xs, ys, rfl, rfl, he⟩
    · cases v with
      | list | map => cases hc
      | null =>
        simp only [Env.index, hd]
        exact agrees_fail h _ _
      | _ => exact agrees_pure (sim.refl _)
    · exact agrees_pure (sim.refl _)
    · simp only [Env.index, hd]
      exact agrees_pure (getD_rel (get?_rel he _))

theorem unary_rel (op : UnaryOp) {v w : Value} (h : sim.rel v w) :
    sim.rel (op.apply v) (op.apply w) := by
  have same : ∀ u : Value, op.apply u.contents = op.apply u := by
    intro u
    unfold UnaryOp.apply
    rw [Value.truthy_contents, Value.toNumber_contents, Value.typeName_contents]
  rw [sim.view op.apply same h]
  exact sim.refl _

theorem looseEq_congr {a b a' b' : Value} (h : sim.rel a b) (h' : sim.rel a' b')
    (hs : a.same a' = b.same b') : a.looseEq a' = b.looseEq b' := by
  unfold Value.looseEq
  rw [strictEq_congr h h' hs, sim.view Value.isNull Value.isNull_contents h,
    sim.view Value.isNull Value.isNull_contents h',
    sim.view Value.isCollection Value.isCollection_contents h,
    sim.view Value.isCollection Value.isCollection_contents h']
  rcases sim.shape h with ⟨rfl, -⟩ | ⟨_, _, _, _, rfl, rfl, -⟩ | ⟨_, _, _, _, rfl, rfl, -⟩
  · rcases sim.shape h' with ⟨rfl, -⟩ | ⟨_, _, _, _, rfl, rfl, -⟩ | ⟨_, _, _, _, rfl, rfl, -⟩
    · rfl
    · simp [Value.isCollection]
    · simp [Value.isCollection]
  · simp [Value.isCollection]
  · simp [Value.isCollection]

theorem compare?_congr {a b a' b' : Value} (h : sim.rel a b) (h' : sim.rel a' b') :
    a.compare? a' = b.compare? b' := by
  have hn := sim.view Value.toNumber Value.toNumber_contents h
  have hn' := sim.view Value.toNumber Value.toNumber_contents h'
  rcases sim.shape h with ⟨rfl, -⟩ | ⟨_, _, _, _, rfl, rfl, -⟩ | ⟨_, _, _, _, rfl, rfl, -⟩
  · rcases sim.shape h' with ⟨rfl, -⟩ | ⟨_, _, _, _, rfl, rfl, -⟩ | ⟨_, _, _, _, rfl, rfl, -⟩
    · rfl
    · simp only [Value.compare?, hn']
    · simp only [Value.compare?, hn']
  · simp only [Value.compare?, hn, hn']
  · simp only [Value.compare?, hn, hn']

end Similarity

/-- Whether an operator compares for equality. -/
def BinaryOp.isEquality : BinaryOp → Bool
  | eq | ne | strictEq | strictNe => true
  | _ => false

namespace Similarity

variable {sim : Similarity} {s s' : State} {env env' : Env}

theorem decides_congr (op : BinaryOp) {v w : Value} (h : sim.rel v w) :
    op.decides v = op.decides w := by
  unfold BinaryOp.decides
  rw [sim.view Value.truthy Value.truthy_contents h, sim.view Value.isNull Value.isNull_contents h]

theorem isTextual_contents (v : Value) : v.contents.isTextual = v.isTextual := by cases v <;> rfl

theorem binary_rel (op : BinaryOp) {a b a' b' : Value} (h : sim.rel a b) (h' : sim.rel a' b')
    (hs : op.isEquality = true → a.same a' = b.same b') :
    sim.rel (op.apply a a') (op.apply b b') := by
  have number := sim.view Value.toNumber Value.toNumber_contents h
  have number' := sim.view Value.toNumber Value.toNumber_contents h'
  cases op with
  | and | or =>
    simp only [BinaryOp.apply]
    rw [sim.view Value.truthy Value.truthy_contents h]
    split <;> assumption
  | nullish =>
    simp only [BinaryOp.apply]
    rw [sim.view Value.isNull Value.isNull_contents h]
    split <;> assumption
  | add =>
    simp only [BinaryOp.apply]
    rw [number, number', sim.view Value.isTextual isTextual_contents h,
      sim.view Value.isTextual isTextual_contents h',
      sim.view Value.display Value.display_contents h,
      sim.view Value.display Value.display_contents h']
    exact sim.refl _
  | lt | gt | le | ge =>
    simp only [BinaryOp.apply]
    rw [compare?_congr h h']
    exact sim.refl _
  | eq | ne =>
    simp only [BinaryOp.apply]
    rw [looseEq_congr h h' (hs rfl)]
    exact sim.refl _
  | strictEq | strictNe =>
    simp only [BinaryOp.apply]
    rw [strictEq_congr h h' (hs rfl)]
    exact sim.refl _
  | _ =>
    simp only [BinaryOp.apply]
    rw [number, number']
    exact sim.refl _

end Similarity

/-! ## Expressions -/

namespace Expr

/-- Whether an expression is a literal that is neither a list nor a map. -/
def isScalarLiteral : Expr → Bool
  | .literal _ v => !v.isCollection
  | _ => false

/-- What the outermost form of an expression may be for two runs to go alike: no method of the
component is called, functions respect the correspondence, and identities are looked at only where
the two runs agree on them. -/
def Tame (sim : Similarity) (functions : String → Option Function) : Expr → Prop
  | .method .. => False
  | .function _ n _ => ∀ f, functions n = some f → sim.Respects f
  | .binary _ op l r =>
    op.isEquality = true → sim.KeepsIdentity ∨ l.isScalarLiteral = true ∨ r.isScalarLiteral = true
  | .call _ (.member _ _ p _) _ => sim.KeepsIdentity ∨ p ≠ "includes" ∧ p ≠ "indexOf"
  | _ => True

end Expr

namespace Similarity

variable {sim : Similarity} {s s' : State} {env env' : Env}

theorem Agrees.mono {α β : Type} {r q : α → β → Prop} {m : Effect α} {m' : Effect β}
    (h : sim.Agrees s s' r m m') (hq : ∀ {a b}, r a b → q a b) : sim.Agrees s s' q m m' := by
  intro n n' hn
  obtain ⟨k, k', hk, hs, hs', ho⟩ := h n n' hn
  exact ⟨k, k', hk, hs, hs', ho.mono hq⟩

/-- An operand, of which a scalar literal gives a scalar. -/
theorem agrees_operand {e : Expr}
    (h : sim.Agrees s s' (Option.Rel sim.rel) (e.chain env) (e.chain env')) :
    sim.Agrees s s' (fun x y => sim.rel (x.getD .null) (y.getD .null) ∧
      (e.isScalarLiteral = true → (x.getD .null).isCollection = false)) (e.chain env)
      (e.chain env') := by
  by_cases hl : e.isScalarLiteral = true
  · cases e with
    | literal t v =>
      simp only [Expr.isScalarLiteral, Bool.not_eq_true'] at hl
      simp only [Expr.chain]
      exact agrees_pure ⟨sim.refl _, fun _ => hl⟩
    | _ => cases hl
  · exact h.mono fun hxy => ⟨getD_rel hxy, fun hl' => absurd hl' hl⟩

theorem same_scalar_left {a b : Value} (h : a.isCollection = false) : a.same b = false := by
  cases a with
  | list | map => cases h
  | _ => rfl

theorem same_scalar_right {a b : Value} (h : b.isCollection = false) : a.same b = false := by
  cases b with
  | list | map => cases h
  | _ => cases a <;> rfl

/-- The two operands of a comparison are identical in both runs or in neither. -/
theorem same_congr {sim : Similarity} {l r : Expr} {a b a' b' : Value} (h : sim.rel a b)
    (h' : sim.rel a' b') (hl : l.isScalarLiteral = true → a.isCollection = false)
    (hr : r.isScalarLiteral = true → a'.isCollection = false)
    (hk : sim.KeepsIdentity ∨ l.isScalarLiteral = true ∨ r.isScalarLiteral = true) :
    a.same a' = b.same b' := by
  have collection := sim.view Value.isCollection Value.isCollection_contents h
  have collection' := sim.view Value.isCollection Value.isCollection_contents h'
  rcases hk with hk | hk | hk
  · exact hk h h'
  · rw [same_scalar_left (hl hk), same_scalar_left (collection ▸ hl hk)]
  · rw [same_scalar_right (hr hk), same_scalar_right (collection' ▸ hr hk)]

/-- The state itself as the object of an access. -/
theorem chain_state {o : Expr} (h : o.isState = true) (env : Env) :
    o.chain env = (do return some (← get).value) := by
  obtain ⟨t, rfl⟩ := Expr.isState_iff.1 h
  rfl

/-- A property of the state: only the field of that name is read. -/
theorem agrees_stateMember {t : Span} {o : Expr} {p : String} {q : Bool} (ho : o.isState = true)
    (hs : State.AgreeOn sim (Expr.member t o p q).reads s s') :
    sim.Agrees s s' (Option.Rel sim.rel) ((Expr.member t o p q).chain env)
      ((Expr.member t o p q).chain env') := by
  obtain ⟨u, rfl⟩ := Expr.isState_iff.1 ho
  have hf := hs.fields p (List.mem_singleton.2 rfl)
  simp only [Expr.chain, Env.root]
  intro n n' hn
  refine ⟨n, n', hn, ?_, ?_, ?_⟩
  · cases q <;> rfl
  · cases q <;> rfl
  · cases q <;> exact .ok (.some (getD_rel hf))

/-- An entry of the state under a literal key: only the field of that name is read. -/
theorem agrees_stateIndex {t : Span} {o i : Expr} {q : Bool} (ho : o.isState = true)
    (hi : i.literalKey? ≠ none) (hs : State.AgreeOn sim (Expr.index t o i q).reads s s') :
    sim.Agrees s s' (Option.Rel sim.rel) ((Expr.index t o i q).chain env)
      ((Expr.index t o i q).chain env') := by
  obtain ⟨u, rfl⟩ := Expr.isState_iff.1 ho
  unfold Expr.literalKey? at hi
  split at hi
  · rename_i key
    have hf := hs.fields key (List.mem_singleton.2 rfl)
    simp only [Expr.chain, Env.root]
    intro n n' hn
    refine ⟨n, n', hn, ?_, ?_, ?_⟩
    · cases q <;> rfl
    · cases q <;> rfl
    · cases q <;> exact .ok (.some (getD_rel hf))
  · rename_i m
    have hf := hs.fields (Decimal.intText m.toInt) (List.mem_singleton.2 rfl)
    simp only [Expr.chain, Env.root]
    intro n n' hn
    refine ⟨n, n', hn, ?_, ?_, ?_⟩
    · cases q <;> rfl
    · cases q <;> rfl
    · cases q <;> exact .ok (.some (getD_rel hf))
  · exact absurd rfl hi

/-- A map has no methods of its own, so a call on it does not depend on its entries. -/
theorem callMethod_map_yields {m m' : Mark} {xs ys : Entries} {args args' : List Value}
    (p : String) :
    sim.Yields sim.rel ((Value.map m xs).callMethod p args) ((Value.map m' ys).callMethod p args') := by
  simp only [Value.callMethod, Value.display, Value.kindName]
  split
  · exact yields_pure (sim.refl _)
  · exact yields_throw _

mutual

/-- Two runs of an expression that correspond in all it reads give related values, or the end of
the chain in both, or the same error. -/
theorem chain_agrees (h : sim.EnvRel env env') :
    ∀ e : Expr, (∀ x ∈ e.subterms, x.Tame sim env.functions) → State.AgreeOn sim e.reads s s' →
      sim.Agrees s s' (Option.Rel sim.rel) (e.chain env) (e.chain env')
  | .literal _ v, _, _ => agrees_pure (.some (sim.refl v))
  | .template _ parts, ht, hs => by
    simp only [Expr.subterms, List.forall_mem_cons] at ht
    simp only [Expr.chain]
    exact (chainParts_agrees h parts ht.2 hs).map fun hab => .some (hab ▸ sim.refl _)
  | .name t n, _, _ => agrees_fail h _ _
  | .self t, _, hs => (agrees_root h t .component hs).map .some
  | .root t r, _, hs => (agrees_root h t r hs).map .some
  | .member t o p q, ht, hs => by
    by_cases ho : o.isState = true
    · exact agrees_stateMember ho hs
    rw [Expr.reads_member (by simpa using ho)] at hs
    simp only [Expr.subterms, List.forall_mem_cons] at ht
    simp only [Expr.chain]
    refine (chain_agrees h o ht.2 hs).bind fun hv => ?_
    cases hv with
    | none => exact agrees_pure .none
    | some hv =>
      simp only
      rw [sim.view Value.isNull Value.isNull_contents hv]
      split
      · exact agrees_pure .none
      · exact (agrees_member h hv p t).map .some
  | .index t o i q, ht, hs => by
    by_cases hk : o.isState = true ∧ i.literalKey? ≠ none
    · exact agrees_stateIndex hk.1 hk.2 hs
    rw [Expr.reads_index (by grind)] at hs
    simp only [Expr.subterms, List.forall_mem_cons, List.forall_mem_append] at ht
    simp only [Expr.chain]
    refine (chain_agrees h o ht.2.1 hs.left).bind fun hv => ?_
    cases hv with
    | none => exact agrees_pure .none
    | some hv =>
      simp only
      rw [sim.view Value.isNull Value.isNull_contents hv]
      split
      · exact agrees_pure .none
      · exact (chain_agrees h i ht.2.2 hs.right).bind fun hi =>
          (agrees_index h hv (getD_rel hi) t).map .some
  | .call t (.member u o p q) args, ht, hs => by
    simp only [Expr.subterms, List.forall_mem_cons, List.forall_mem_append] at ht
    obtain ⟨hp, ⟨-, hto⟩, hta⟩ := ht
    have hargs := chainAll_agrees h args hta hs.right
    by_cases ho : o.isState = true
    · simp only [Expr.chain, chain_state ho]
      -- the state is never null, and a call on it reads none of its fields
      have call : sim.Agrees s s' (Option.Rel sim.rel)
          (do return some (← env.callFunction (s.value.callMethod p (← chainAll env args)) u))
          (do return some (← env'.callFunction (s'.value.callMethod p (← chainAll env' args)) u)) :=
        hargs.bind fun _ => (agrees_callFunction h (callMethod_map_yields p) u).map .some
      intro n n' hn
      cases q <;> exact call n n' hn
    have hs' := hs.left
    rw [Expr.reads_member (by simpa using ho)] at hs'
    simp only [Expr.chain]
    refine (chain_agrees h o hto hs').bind fun hv => ?_
    cases hv with
    | none => exact agrees_pure .none
    | some hv =>
      simp only
      rw [sim.view Value.isNull Value.isNull_contents hv]
      split
      · exact agrees_pure .none
      · split
        · exact agrees_fail h _ _
        · exact hargs.bind fun ha =>
            (agrees_callFunction h (callMethod_yields p hp hv ha) u).map .some
  | .call _ (.literal ..) _, _, _ | .call _ (.template ..) _, _, _ | .call _ (.name ..) _, _, _
  | .call _ (.self ..) _, _, _ | .call _ (.root ..) _, _, _ | .call _ (.index ..) _, _, _
  | .call _ (.call ..) _, _, _ | .call _ (.method ..) _, _, _ | .call _ (.function ..) _, _, _
  | .call _ (.unary ..) _, _, _ | .call _ (.binary ..) _, _, _
  | .call _ (.conditional ..) _, _, _ | .call _ (.array ..) _, _, _ | .call _ (.object ..) _, _, _
  | .call _ (.arrow ..) _, _, _ => by
    simp only [Expr.chain]
    exact agrees_fail h _ _
  -- a method may write to the state, so no tame expression has one
  | .method t n args, ht, _ => (ht _ (Expr.mem_subterms_self _)).elim
  | .function t n args, ht, hs => by
    simp only [Expr.subterms, List.forall_mem_cons] at ht
    simp only [Expr.chain]
    refine (chainAll_agrees h args ht.2 hs).bind fun ha => ?_
    rw [← h.functions]
    cases hf : env.functions n with
    | some f => exact (agrees_callFunction h (ht.1 f hf _ _ ha) t).map .some
    | none => exact agrees_fail h _ _
  | .unary _ op e, ht, hs => by
    simp only [Expr.subterms, List.forall_mem_cons] at ht
    simp only [Expr.chain]
    exact (chain_agrees h e ht.2 hs).map fun hv => .some (unary_rel op (getD_rel hv))
  | .binary _ op l r, ht, hs => by
    simp only [Expr.subterms, List.forall_mem_cons, List.forall_mem_append] at ht
    simp only [Expr.chain]
    refine (agrees_operand (chain_agrees h l ht.2.1 hs.left)).bind fun hl => ?_
    rw [decides_congr op hl.1]
    split
    · exact agrees_pure (.some hl.1)
    · exact (agrees_operand (chain_agrees h r ht.2.2 hs.right)).map fun hr =>
        .some (binary_rel op hl.1 hr.1 fun he => same_congr hl.1 hr.1 hl.2 hr.2 (ht.1 he))
  | .conditional _ c t e, ht, hs => by
    simp only [Expr.subterms, List.forall_mem_cons, List.forall_mem_append] at ht
    simp only [Expr.chain]
    refine (chain_agrees h c ht.2.1 hs.left.left).bind fun hc => ?_
    rw [sim.view Value.truthy Value.truthy_contents (getD_rel hc)]
    split
    · exact (chain_agrees h t ht.2.2.1 hs.left.right).map fun hv => .some (getD_rel hv)
    · exact (chain_agrees h e ht.2.2.2 hs.right).map fun hv => .some (getD_rel hv)
  | .array _ items, ht, hs => by
    simp only [Expr.subterms, List.forall_mem_cons] at ht
    simp only [Expr.chain]
    exact (chainAll_agrees h items ht.2 hs).bind fun hi =>
      (agrees_alloc (makes_newList hi)).map .some
  | .object _ entries, ht, hs => by
    simp only [Expr.subterms, List.forall_mem_cons] at ht
    simp only [Expr.chain]
    exact (chainEntries_agrees h entries ht.2 hs).bind fun he =>
      (agrees_alloc (makes_newMap (foldl_insert_rel he .nil))).map .some
  | .arrow t _ _, _, _ => agrees_fail h _ _

theorem chainAll_agrees (h : sim.EnvRel env env') :
    ∀ es : List Expr, (∀ x ∈ subtermsAll es, x.Tame sim env.functions) →
      State.AgreeOn sim (readsAll es) s s' →
      sim.Agrees s s' (List.Forall₂ sim.rel) (chainAll env es) (chainAll env' es)
  | [], _, _ => agrees_pure .nil
  | e :: rest, ht, hs => by
    simp only [subtermsAll, List.forall_mem_append] at ht
    simp only [chainAll]
    exact (chain_agrees h e ht.1 hs.left).bind fun hv =>
      (chainAll_agrees h rest ht.2 hs.right).map fun hr => .cons (getD_rel hv) hr

theorem chainEntries_agrees (h : sim.EnvRel env env') :
    ∀ es : List (String × Expr), (∀ x ∈ subtermsEntries es, x.Tame sim env.functions) →
      State.AgreeOn sim (readsEntries es) s s' →
      sim.Agrees s s' (List.Forall₂ (EntryRel sim.rel)) (chainEntries env es) (chainEntries env' es)
  | [], _, _ => agrees_pure .nil
  | (k, e) :: rest, ht, hs => by
    simp only [subtermsEntries, List.forall_mem_append] at ht
    simp only [chainEntries]
    exact (chain_agrees h e ht.1 hs.left).bind fun hv =>
      (chainEntries_agrees h rest ht.2 hs.right).map fun hr => .cons ⟨rfl, getD_rel hv⟩ hr

theorem chainParts_agrees (h : sim.EnvRel env env') :
    ∀ parts : List TemplatePart, (∀ x ∈ subtermsParts parts, x.Tame sim env.functions) →
      State.AgreeOn sim (readsParts parts) s s' →
      sim.Agrees s s' (· = ·) (chainParts env parts) (chainParts env' parts)
  | [], _, _ => agrees_pure rfl
  | .text t :: rest, ht, hs => by
    simp only [chainParts]
    exact (chainParts_agrees h rest ht hs).map fun hr => by rw [hr]
  | .hole e :: rest, ht, hs => by
    simp only [subtermsParts, List.forall_mem_append] at ht
    simp only [chainParts]
    refine (chain_agrees h e ht.1 hs.left).bind fun hv => ?_
    exact (chainParts_agrees h rest ht.2 hs.right).map fun hr => by
      rw [hr, sim.view Value.display Value.display_contents (getD_rel hv)]

end

/-- The same for the value of an expression. -/
theorem eval_agrees (h : sim.EnvRel env env') {e : Expr}
    (ht : ∀ x ∈ e.subterms, x.Tame sim env.functions) (hs : State.AgreeOn sim e.reads s s') :
    sim.Agrees s s' sim.rel (e.eval env) (e.eval env') :=
  (chain_agrees h e ht hs).map getD_rel

theorem exact_envRel (env : Env) : exact.EnvRel env env :=
  ⟨rfl, rfl, rfl, List.forall₂_same.2 fun _ _ => ⟨rfl, rfl, rfl⟩⟩

end Similarity

/-! ## Dependence on the fields read -/

namespace Expr

/-- Whether an expression is a call of a method of the component. -/
def isMethodCall : Expr → Bool
  | .method .. => true
  | _ => false

/-- Whether a method of the component is called anywhere in an expression. -/
def callsMethod (e : Expr) : Bool := e.subterms.any isMethodCall

theorem tame_exact {e : Expr} (h : e.callsMethod = false) (functions : String → Option Function) :
    ∀ x ∈ e.subterms, x.Tame .exact functions := by
  intro x hx
  have hm : x.isMethodCall = false := by
    unfold callsMethod at h
    rw [List.any_eq_false] at h
    simpa using h x hx
  unfold Tame
  split
  · cases hm
  · exact fun f _ => Similarity.exact_respects f
  · exact fun _ => .inl Similarity.exact_keepsIdentity
  · exact .inl Similarity.exact_keepsIdentity
  · trivial

/-- An expression that calls no method of the component and does not read the state as a whole
depends on the fields it reads and on nothing else of the state: in two states with the same value,
or none, in each of these fields, it has the same value or fails with the same error. Both runs
mark the collections they make from one supply, and they change nothing else. -/
theorem eval_eq_of_reads_eq (env : Env) (e : Expr) (hm : e.callsMethod = false)
    (ha : e.reads.any = false) (s s' : State)
    (hf : ∀ f ∈ e.reads.fields, s.entries.get? f = s'.entries.get? f) (n : Supply) :
    (e.eval env { s with supply := n }).1 = (e.eval env { s' with supply := n }).1 ∧
      ∃ k, (e.eval env { s with supply := n }).2 = { s with supply := k } ∧
        (e.eval env { s' with supply := n }).2 = { s' with supply := k } := by
  have agree : State.AgreeOn .exact e.reads s s' := by
    refine ⟨fun f h => ?_, fun h => by rw [ha] at h; cases h⟩
    rw [hf f h]
    cases s'.entries.get? f with
    | some v => exact .some rfl
    | none => exact .none
  obtain ⟨k, k', hk, hs, hs', ho⟩ :=
    Similarity.eval_agrees (Similarity.exact_envRel env) (tame_exact hm env.functions) agree n n rfl
  obtain rfl : k = k' := hk
  refine ⟨?_, k, hs, hs'⟩
  generalize (e.eval env { s with supply := n }).1 = x at ho ⊢
  generalize (e.eval env { s' with supply := n }).1 = y at ho ⊢
  cases ho with
  | ok h => exact congrArg Except.ok h
  | error e => rfl

/-- `state.open ? items.length : [title]` where only the field `other` differs, which holds an
integer in one state and is missing in the other. -/
theorem eval_eq_of_reads_eq_conditional :
    let e : Expr := .conditional ⟨0, 37⟩ (.member ⟨0, 10⟩ (.root ⟨0, 5⟩ .state) "open" false)
      (.member ⟨13, 25⟩ (.root ⟨13, 18⟩ (.field "items")) "length" false)
      (.array ⟨28, 35⟩ [.root ⟨29, 34⟩ (.field "title")])
    let env : Env := ⟨"", fun _ => none, .map 0 [("title", .text "p")], fun _ => none, []⟩
    let s : State := ⟨1, [("open", .bool false), ("other", .int 1)], [], ⟨2⟩⟩
    let s' : State := ⟨7, [("open", .bool false)], ["other"], ⟨9⟩⟩
    (e.eval env { s with supply := ⟨10⟩ }).1 = (e.eval env { s' with supply := ⟨10⟩ }).1 ∧
      ∃ k, (e.eval env { s with supply := ⟨10⟩ }).2 = { s with supply := k } ∧
        (e.eval env { s' with supply := ⟨10⟩ }).2 = { s' with supply := k } := by
  intro e env s s'
  have fields : e.reads.fields = ["items", "open", "title"] := by decide +kernel
  refine eval_eq_of_reads_eq _ _ rfl rfl _ _ ?_ ⟨10⟩
  rw [fields]
  intro f hf
  rcases List.mem_cons.1 hf with rfl | hf
  · rfl
  rcases List.mem_cons.1 hf with rfl | hf
  · rfl
  cases List.mem_singleton.1 hf
  rfl

end Expr

end LiveTemplate
