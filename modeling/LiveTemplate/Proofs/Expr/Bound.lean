/-
The variables that resolved expressions mention. An expression that was read and then resolved
mentions only variables that were in scope, and a handler keeps only loop variables: the parameters
of its arrow function are its own. While a template runs, a name that a scope has is found there.
-/
import LiveTemplate.Expr.Eval
import LiveTemplate.Proofs.Expr.Legible
import LiveTemplate.Proofs.Expr.Parsed

namespace LiveTemplate

/-! ## Resolution -/

variable {scope : NameScope}

theorem boundNames_named (s : Span) (p : String) : (Expr.root s (.named p)).boundNames = [] := by
  unfold Root.named
  split
  · rfl
  · split <;> rfl

theorem binds_of_root {s : Span} {m n : String}
    (h : n ∈ (Expr.root s (scope.root m)).boundNames) : scope.binds n = true := by
  unfold NameScope.root at h
  split at h
  case isTrue bound =>
    rw [Expr.boundNames, List.mem_singleton] at h
    rwa [h]
  case isFalse =>
    rw [boundNames_named] at h
    cases h

mutual

/-- A resolved expression mentions only variables that were in scope. -/
theorem Expr.Resolves.binds : ∀ {raw e : Expr}, raw.Resolves scope e → raw.Written →
    ∀ n ∈ e.boundNames, scope.binds n = true
  | _, _, .literal .., _, _, hn | _, _, .self _, _, _, hn => by cases hn
  | _, _, .root .., hw, _, _ | _, _, .method _, hw, _, _ | _, _, .function _, hw, _, _ =>
    False.elim hw
  | _, _, .name .., _, _, hn => binds_of_root hn
  | _, _, .part _ _ p, _, n, hn => by
    rw [boundNames_named] at hn
    cases hn
  | _, _, .template hp, hw, n, hn => hp.binds hw n hn
  | _, _, .member _ ho, hw, n, hn => ho.binds hw.2 n hn
  | _, _, .index ho hi, hw, n, hn => by
    rw [Expr.boundNames, Names.mem_union] at hn
    exact hn.elim (ho.binds hw.1 n) (hi.binds hw.2 n)
  | _, _, .bareFunction _ _ ha, hw, n, hn | _, _, .bareMethod _ _ ha, hw, n, hn
  | _, _, .ownMethod ha, hw, n, hn | _, _, .namespaced _ _ _ ha, hw, n, hn => ha.binds hw.2 n hn
  | _, _, .call _ _ ho ha, hw, n, hn => by
    rw [Expr.boundNames, Expr.boundNames, Names.mem_union] at hn
    exact hn.elim (ho.binds hw.1.2 n) (ha.binds hw.2 n)
  | _, _, .unary he, hw, n, hn => he.binds hw n hn
  | _, _, .binary hl hr, hw, n, hn => by
    rw [Expr.boundNames, Names.mem_union] at hn
    exact hn.elim (hl.binds hw.1 n) (hr.binds hw.2 n)
  | _, _, .conditional hc ht he, hw, n, hn => by
    rw [Expr.boundNames, Names.mem_union, Names.mem_union] at hn
    rcases hn with (hn | hn) | hn
    · exact hc.binds hw.1 n hn
    · exact ht.binds hw.2.1 n hn
    · exact he.binds hw.2.2 n hn
  | _, _, .array hi, hw, n, hn => hi.binds hw n hn
  | _, _, .object he, hw, n, hn => he.binds hw n hn

theorem ResolvesAll.binds : ∀ {raw es : List Expr}, ResolvesAll scope raw es → writtenAll raw →
    ∀ n ∈ boundNamesAll es, scope.binds n = true
  | _, _, .nil, _, _, hn => by cases hn
  | _, _, .cons he hr, hw, n, hn => by
    rw [boundNamesAll, Names.mem_union] at hn
    exact hn.elim (he.binds hw.1 n) (hr.binds hw.2 n)

theorem ResolvesEntries.binds : ∀ {raw entries : List (String × Expr)},
    ResolvesEntries scope raw entries → writtenEntries raw →
      ∀ n ∈ boundNamesEntries entries, scope.binds n = true
  | _, _, .nil, _, _, hn => by cases hn
  | _, _, .cons he hr, hw, n, hn => by
    rw [boundNamesEntries, Names.mem_union] at hn
    rcases hn with hn | hn
    · -- an entry that is its key alone may be a reserved word, which is still a name
      rcases hw.1 with ⟨s, rfl, -⟩ | hw
      · cases he
        exact binds_of_root hn
      · exact he.binds hw n hn
    · exact hr.binds hw.2 n hn

theorem ResolvesParts.binds : ∀ {raw parts : List TemplatePart}, ResolvesParts scope raw parts →
    writtenParts raw → ∀ n ∈ boundNamesParts parts, scope.binds n = true
  | _, _, .nil, _, _, hn => by cases hn
  | _, _, .text hr, hw, n, hn => hr.binds hw.2.2 n hn
  | _, _, .hole he hr, hw, n, hn => by
    rw [boundNamesParts, Names.mem_union] at hn
    exact hn.elim (he.binds hw.1 n) (hr.binds hw.2 n)

end

theorem mem_loopVars {knows : String → Bool} {loopVars : List String} {n : String}
    (h : NameScope.binds ⟨knows, loopVars, []⟩ n = true) : n ∈ loopVars := by
  simpa [NameScope.binds] using h

/-- An expression that was read where some variables are in scope mentions only those. -/
theorem boundNames_of_read {knows : String → Bool} {loopVars : List String} {region : Region}
    {e : Expr} (h : (Expr.parse region >>= Expr.resolve ⟨knows, loopVars, []⟩) = .ok e) :
    ∀ n ∈ e.boundNames, n ∈ loopVars := by
  intro n hn
  obtain ⟨raw, parsed, resolved⟩ := results_of_bind h
  have written := Expr.written_of_parse parsed
  exact mem_loopVars ((Expr.resolves_of_resolve resolved).binds written n hn)

/-- A handler that was read where some variables are in scope keeps only those. -/
theorem locals_of_read {knows : String → Bool} {loopVars : List String} {region : Region}
    {handler : HandlerSource}
    (h : (Expr.parse region >>= Expr.resolveHandler ⟨knows, loopVars, []⟩) = .ok handler) :
    ∀ n ∈ handler.locals, n ∈ loopVars := by
  intro n hn
  obtain ⟨raw, parsed, resolved⟩ := results_of_bind h
  have written := Expr.written_of_parse parsed
  unfold Expr.resolveHandler at resolved
  split at resolved
  case h_1 s params body =>
    obtain ⟨body', hb, resolved⟩ := results_of_bind resolved
    cases resolved
    rw [Expr.boundNames, List.mem_filter] at hn
    obtain ⟨hn, own⟩ := hn
    have bound := (Expr.resolves_of_resolve hb).binds written.2 n hn
    simp only [Bool.not_eq_true', List.contains_eq_mem, decide_eq_false_iff_not] at own
    simpa [NameScope.binds, own] using bound
  case h_2 =>
    obtain ⟨e, he, resolved⟩ := results_of_bind resolved
    cases resolved
    exact mem_loopVars ((Expr.resolves_of_resolve he).binds written n hn)

/-! ## Scopes at run time -/

namespace Scope

theorem names_append (a b : Scope) : Scope.names (a ++ b) = a.names ++ b.names :=
  List.map_append

/-- A name that a scope has is found in it. -/
theorem find?_of_mem {scope : Scope} {n : String} (h : n ∈ scope.names) :
    ∃ var, scope.find? n = some var := by
  obtain ⟨var, hv, rfl⟩ := List.mem_map.1 h
  rw [← Option.isSome_iff_exists, Scope.find?, List.find?_isSome]
  exact ⟨var, List.mem_reverse.2 hv, beq_self_eq_true _⟩

end Scope

/-- The names that a loop brings into scope are its parameters, and with a single parameter also the
index that the binding has along. -/
theorem LoopBinding.names_bind (b : LoopBinding) (item : LoopItem) :
    Scope.names (b.bind item) =
      b.params ++ if b.params.length = 1 then b.indexParam.toList else [] := by
  obtain ⟨params, indexParam, destructured⟩ := b
  match params with
  | [] => rfl
  | [p] => cases indexParam <;> rfl
  | [p, q] =>
    unfold LoopBinding.bind
    cases item.key <;> rfl
  | p :: q :: r :: more =>
    have nulls : (more.map fun m => (⟨m, .null, false⟩ : Var)).map Var.name = more := by
      rw [List.map_map]
      exact List.map_id more
    unfold LoopBinding.bind
    cases item.key <;> simp [Scope.names, nulls]

end LiveTemplate
