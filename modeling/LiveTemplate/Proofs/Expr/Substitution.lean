/-
Literals in place of variables. An expression means the same after values were put in place of the
variables that hold them; what remains are variables of the scope that is left.
-/
import LiveTemplate.Expr.Eval
import LiveTemplate.Expr.Resolve
import LiveTemplate.Proofs.Expr.Reads

namespace LiveTemplate

/-- In a scope, a name holds the value given for it, or else what it holds in another scope. -/
def Bindings.Cover (values : Bindings) (outer inner : Scope) (n : String) : Prop :=
  (outer.find? n).map Var.value = (values.lookup n).or ((inner.find? n).map Var.value)

section

variable {α β : Type}

theorem effect_bind_congr {m m' : Effect α} {f f' : α → Effect β} (h : m = m') (hf : ∀ a, f a = f' a) :
    (m >>= f) = (m' >>= f') := by
  rw [h, funext hf]

end

variable {env : Env} {outer : Scope} {values : Bindings}

mutual

/-- Values in place of the variables that hold them do not change what an expression gives. -/
theorem Expr.chain_substitute : ∀ e : Expr,
    (∀ n ∈ e.boundNames, values.Cover outer env.scope n) →
      (e.substitute values).chain env = e.chain { env with scope := outer }
  | .literal .., _ => rfl
  | .name .., _ => rfl
  | .self .., _ => rfl
  | .root s (.bound n), h => by
    have cover : values.Cover outer env.scope n := h n (by simp [Expr.boundNames])
    unfold Bindings.Cover at cover
    rw [Expr.substitute]
    cases hv : values.lookup n with
    | some v =>
      rw [hv, Option.some_or] at cover
      obtain ⟨var, hvar, rfl⟩ := Option.map_eq_some_iff.1 cover
      simp [Expr.chain, Env.root, hvar]
    | none =>
      rw [hv, Option.none_or] at cover
      simp only [Expr.chain, Env.root]
      cases ho : outer.find? n <;> cases hi : env.scope.find? n <;> simp_all [Env.fail]
  | .root s .component, _ | .root s .state, _ | .root s .props, _ | .root s (.field _), _ => rfl
  | .template s parts, h => by
    rw [Expr.boundNames] at h
    exact effect_bind_congr (chainParts_substitute parts h) fun _ => rfl
  | .member s o p optional, h => by
    rw [Expr.boundNames] at h
    rw [Expr.substitute, Expr.chain, Expr.chain]
    exact effect_bind_congr (o.chain_substitute h) fun _ => rfl
  | .index s o i optional, h => by
    rw [Expr.boundNames] at h
    rw [Expr.substitute, Expr.chain, Expr.chain]
    refine effect_bind_congr (o.chain_substitute fun n hn => h n (Names.mem_union.2 (.inl hn))) fun found => ?_
    rw [i.chain_substitute fun n hn => h n (Names.mem_union.2 (.inr hn))]
    rfl
  | .call s callee args, h => by
    rw [Expr.boundNames] at h
    have ha := chainAll_substitute args fun n hn => h n (Names.mem_union.2 (.inr hn))
    have hc := fun n hn => h n (Names.mem_union.2 (.inl hn))
    -- only a member is called, so any other callee fails before and after
    cases callee with
    | member t o p optional =>
      rw [Expr.boundNames] at hc
      rw [Expr.substitute, Expr.substitute, Expr.chain, Expr.chain]
      refine effect_bind_congr (o.chain_substitute hc) fun found => ?_
      rw [ha]
      rfl
    | root t r =>
      cases r with
      | bound n =>
        rw [Expr.substitute, Expr.substitute]
        cases values.lookup n <;> rfl
      | _ => rfl
    | _ => rfl
  | .method s n args, h => by
    rw [Expr.boundNames] at h
    exact effect_bind_congr (chainAll_substitute args h) fun _ => rfl
  | .function s n args, h => by
    rw [Expr.boundNames] at h
    exact effect_bind_congr (chainAll_substitute args h) fun _ => rfl
  | .unary s op e, h => by
    rw [Expr.boundNames] at h
    exact effect_bind_congr (e.chain_substitute h) fun _ => rfl
  | .binary s op l r, h => by
    rw [Expr.boundNames] at h
    rw [Expr.substitute, Expr.chain, Expr.chain, r.chain_substitute fun n hn => h n (Names.mem_union.2 (.inr hn))]
    exact effect_bind_congr (l.chain_substitute fun n hn => h n (Names.mem_union.2 (.inl hn))) fun _ => rfl
  | .conditional s c t e, h => by
    rw [Expr.boundNames] at h
    simp only [Names.mem_union] at h
    rw [Expr.substitute, Expr.chain, Expr.chain, c.chain_substitute fun n hn => h n (.inl (.inl hn)),
      t.chain_substitute fun n hn => h n (.inl (.inr hn)), e.chain_substitute fun n hn => h n (.inr hn)]
  | .array s items, h => by
    rw [Expr.boundNames] at h
    exact effect_bind_congr (chainAll_substitute items h) fun _ => rfl
  | .object s entries, h => by
    rw [Expr.boundNames] at h
    exact effect_bind_congr (chainEntries_substitute entries h) fun _ => rfl
  | .arrow .., _ => rfl

theorem chainAll_substitute : ∀ es : List Expr,
    (∀ n ∈ boundNamesAll es, values.Cover outer env.scope n) →
      chainAll env (substituteAll values es) = chainAll { env with scope := outer } es
  | [], _ => rfl
  | e :: rest, h => by
    rw [boundNamesAll] at h
    rw [substituteAll, chainAll, chainAll, e.chain_substitute fun n hn => h n (Names.mem_union.2 (.inl hn)),
      chainAll_substitute rest fun n hn => h n (Names.mem_union.2 (.inr hn))]

theorem chainEntries_substitute : ∀ entries : List (String × Expr),
    (∀ n ∈ boundNamesEntries entries, values.Cover outer env.scope n) →
      chainEntries env (substituteEntries values entries) =
        chainEntries { env with scope := outer } entries
  | [], _ => rfl
  | (_, e) :: rest, h => by
    rw [boundNamesEntries] at h
    rw [substituteEntries, chainEntries, chainEntries,
      e.chain_substitute fun n hn => h n (Names.mem_union.2 (.inl hn)),
      chainEntries_substitute rest fun n hn => h n (Names.mem_union.2 (.inr hn))]

theorem chainParts_substitute : ∀ parts : List TemplatePart,
    (∀ n ∈ boundNamesParts parts, values.Cover outer env.scope n) →
      chainParts env (substituteParts values parts) = chainParts { env with scope := outer } parts
  | [], _ => rfl
  | .text _ :: rest, h => by
    rw [boundNamesParts] at h
    rw [substituteParts, chainParts, chainParts, chainParts_substitute rest h]
  | .hole e :: rest, h => by
    rw [boundNamesParts] at h
    rw [substituteParts, chainParts, chainParts,
      e.chain_substitute fun n hn => h n (Names.mem_union.2 (.inl hn)),
      chainParts_substitute rest fun n hn => h n (Names.mem_union.2 (.inr hn))]

end

/-! ## Handlers -/

theorem Scope.find?_append (outer inner : Scope) (n : String) :
    Scope.find? (outer ++ inner) n = (Scope.find? inner n).or (Scope.find? outer n) := by
  simp [Scope.find?]

/-- The variables of an arrow function are its parameters. -/
theorem find?_eventVars (params : List String) (event : Value) (n : String) :
    (Scope.find? (eventVars params event) n).isSome = params.contains n := by
  have names : (eventVars params event).map Var.name = params := by
    cases params <;> simp [eventVars, Function.comp_def]
  rw [Bool.eq_iff_iff, List.contains_iff_mem, Scope.find?, List.find?_isSome]
  conv_rhs => rw [← names]
  simp

theorem lookup_filter (values : Bindings) (keep : String → Bool) (n : String) :
    (values.filter fun b => keep b.1).lookup n = if keep n then values.lookup n else none := by
  induction values with
  | nil => simp
  | cons b values ih =>
    obtain ⟨k, v⟩ := b
    rw [List.filter_cons, lookup_cons_if]
    by_cases same : n = k
    · subst same
      cases kept : keep n
      · simpa [kept] using ih
      · simp
    · cases keep k <;> simp [ih, lookup_cons_if, same]

theorem lookup_map_self {f : String → Value} {n : String} : ∀ {names : List String}, n ∈ names →
    (names.map fun m => (m, f m)).lookup n = some (f n)
  | m :: names, h => by
    rw [List.map_cons, lookup_cons_if]
    split
    case isTrue same => rw [same]
    case isFalse other => exact lookup_map_self ((List.mem_cons.1 h).resolve_left other)

/-- Invoking a handler with values in place of all its variables is invoking it in their scope. -/
theorem Expr.invoke_substitute (env : Env) {values : Bindings} {scope : Scope} (event : Value) {e : Expr}
    (h : ∀ n ∈ e.boundNames, (scope.find? n).map Var.value = values.lookup n ∧
      (values.lookup n).isSome = true) :
    (e.substitute values).invoke { env with scope := [] } event =
      e.invoke { env with scope } event := by
  have cover {n : String} (hn : n ∈ e.boundNames) : values.Cover scope [] n := by
    simpa [Bindings.Cover, Scope.find?] using (h n hn).1
  have plain : (e.substitute values).eval { env with scope := [] } = e.eval { env with scope } :=
    effect_bind_congr (e.chain_substitute fun n hn => cover hn) fun _ => rfl
  cases e with
  | arrow s params body =>
    refine effect_bind_congr (body.chain_substitute fun n hn => ?_) fun _ => rfl
    have found := find?_eventVars params event n
    unfold Bindings.Cover
    rw [lookup_filter values (fun m => !params.contains m), Scope.find?_append]
    by_cases param : params.contains n = true
    · rw [param] at found
      obtain ⟨var, hvar⟩ := Option.isSome_iff_exists.1 found
      simp only [hvar, Option.some_or, param, Bool.not_true, Bool.false_eq_true, if_false,
        Option.none_or, List.nil_append]
    · have outer : n ∈ (Expr.arrow s params body).boundNames := by
        rw [Expr.boundNames]
        exact List.mem_filter.2 ⟨hn, by simpa using param⟩
      obtain ⟨value, some⟩ := h n outer
      obtain ⟨v, hv⟩ := Option.isSome_iff_exists.1 some
      rw [Bool.not_eq_true] at param
      rw [param, Option.isSome_eq_false_iff, Option.isNone_iff_eq_none] at found
      simp only [found, Option.none_or, value, param, Bool.not_false, if_true, hv, Option.some_or]
  | root s r =>
    cases r with
    | bound n =>
      have unfolded : ((Expr.root s (.bound n)).substitute values).invoke { env with scope := [] } event =
          ((Expr.root s (.bound n)).substitute values).eval { env with scope := [] } := by
        rw [Expr.substitute]
        cases values.lookup n <;> rfl
      exact unfolded.trans plain
    | field n =>
      show (if (env.methods n).isSome then _ else _) = if (env.methods n).isSome then _ else _
      split
      · rfl
      · exact plain
    | _ => exact plain
  | _ => exact plain

end LiveTemplate
