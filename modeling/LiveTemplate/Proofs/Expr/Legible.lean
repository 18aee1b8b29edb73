/-
Resolved expressions that can be read again. An expression that was resolved within loops, with
numbers in place of the loop variables, can be written, and its written form is resolved to it where
no loop is around.
-/
import LiveTemplate.Proofs.Expr.Places
import LiveTemplate.Proofs.Expr.Source
import LiveTemplate.Proofs.Expr.Substitution

namespace LiveTemplate

open Grammar

/-! ## Legible expressions -/

/-- The names an expression is read with outside of all loops. -/
def NameScope.outside (scope : NameScope) : NameScope := { scope with loopVars := [] }

theorem NameScope.binds_outside (scope : NameScope) (n : String) :
    scope.outside.binds n = scope.params.contains n := by
  simp [outside, binds]

theorem NameScope.not_binds_outside {scope : NameScope} {n : String} (h : scope.binds n = false) :
    scope.outside.binds n = false := by
  rw [binds_outside]
  exact (Bool.or_eq_false_iff.1 h).1

/-- A resolved expression whose written form can be written and is resolved to it. -/
structure Expr.Legible (scope : NameScope) (e : Expr) : Prop where
  written : e.source.Written
  resolves : e.source.resolve scope = .ok e

/-- Legible parts of a template string. -/
structure LegibleParts (scope : NameScope) (parts : List TemplatePart) : Prop where
  written : writtenParts (sourceParts parts)
  resolves : resolveParts scope (sourceParts parts) = .ok parts

/-- Legible entries of an object literal, of which the value may be a reserved word that is the key. -/
structure LegibleEntries (scope : NameScope) (entries : List (String × Expr)) : Prop where
  written : writtenEntries (sourceEntries entries)
  resolves : resolveEntries scope (sourceEntries entries) = .ok entries

/-- Legible expressions between commas. -/
structure LegibleAll (scope : NameScope) (es : List Expr) : Prop where
  written : writtenAll (sourceAll es)
  resolves : resolveAll scope (sourceAll es) = .ok es

namespace Expr.Legible

variable {scope : NameScope} {o i l r c t e : Expr} {args : List Expr} {s u : Span}
  {p n : String} {optional : Bool}

theorem literal {v : Value} (h : v.Written) : (Expr.literal s v).Legible scope :=
  ⟨by simpa [source, Written] using h, rfl⟩

/-- A part of the component by its name. -/
theorem named (h : isName p = true) (s : Span) : (Expr.root s (.named p)).Legible scope := by
  have written : isName "state" = true ∧ isName "props" = true := by decide +kernel
  unfold Root.named
  split
  · exact ⟨by simpa [source, Root.source, Written] using written.1, rfl⟩
  · split
    · exact ⟨by simpa [source, Root.source, Written] using written.2, rfl⟩
    · rename_i hs hp
      refine ⟨by simpa [source, Root.source, Written] using h, ?_⟩
      simp [source, Root.source, resolve, Root.named, hs, hp]

theorem member (ho : o.Legible scope) (hp : isName p = true)
    (hs : o.source.isSelf = false ∨ optional = true) : (Expr.member s o p optional).Legible scope := by
  refine ⟨by simpa [source, Written] using ⟨hp, ho.written⟩, ?_⟩
  rw [source, resolve_member_object hs, ho.resolves]
  rfl

theorem index (ho : o.Legible scope) (hi : i.Legible scope) : (Expr.index s o i optional).Legible scope := by
  refine ⟨by simpa [source, Written] using ⟨ho.written, hi.written⟩, ?_⟩
  rw [source, resolve, ho.resolves, hi.resolves]
  rfl

/-- A name that is written is one of a parameter. -/
theorem binds_of_source (h : o.Legible scope) (hs : o.source = .name s n) : scope.binds n = true := by
  have resolved := h.resolves
  rw [hs, resolve, NameScope.root] at resolved
  split at resolved
  · assumption
  · cases resolved
    rw [source] at hs
    unfold Root.named at hs
    split at hs
    · cases hs
    · split at hs <;> cases hs

theorem call (ho : o.Legible scope) (hp : isName p = true)
    (hs : o.source.isSelf = false ∨ optional = true) (ha : LegibleAll scope args) :
    (Expr.call s (.member u o p optional) args).Legible scope := by
  refine ⟨by simpa [source, Written] using ⟨⟨hp, ho.written⟩, ha.written⟩, ?_⟩
  rw [source, source, resolve_call_object hs fun _ _ hn => .inl (ho.binds_of_source hn), ha.resolves,
    ho.resolves]
  rfl

theorem method (hn : isName n = true) (ha : LegibleAll scope args) :
    (Expr.method s n args).Legible scope := by
  refine ⟨by simpa [source, Written] using ⟨hn, ha.written⟩, ?_⟩
  rw [source, resolve, ha.resolves]
  rfl

theorem unary {op : UnaryOp} (he : e.Legible scope) : (Expr.unary s op e).Legible scope := by
  refine ⟨by simpa [source, Written] using he.written, ?_⟩
  rw [source, resolve, he.resolves]
  rfl

theorem binary {op : BinaryOp} (hl : l.Legible scope) (hr : r.Legible scope) :
    (Expr.binary s op l r).Legible scope := by
  refine ⟨by simpa [source, Written] using ⟨hl.written, hr.written⟩, ?_⟩
  rw [source, resolve, hl.resolves, hr.resolves]
  rfl

theorem conditional (hc : c.Legible scope) (ht : t.Legible scope) (he : e.Legible scope) :
    (Expr.conditional s c t e).Legible scope := by
  refine ⟨by simpa [source, Written] using ⟨hc.written, ht.written, he.written⟩, ?_⟩
  rw [source, resolve, hc.resolves, ht.resolves, he.resolves]
  rfl

theorem array (ha : LegibleAll scope args) : (Expr.array s args).Legible scope := by
  refine ⟨by simpa [source, Written] using ha.written, ?_⟩
  rw [source, resolve, ha.resolves]
  rfl

theorem object {entries : List (String × Expr)} (he : LegibleEntries scope entries) :
    (Expr.object s entries).Legible scope := by
  refine ⟨by simpa [source, Written] using he.written, ?_⟩
  rw [source, resolve, he.resolves]
  rfl

theorem template {parts : List TemplatePart} (hp : LegibleParts scope parts) :
    (Expr.template s parts).Legible scope := by
  refine ⟨by simpa [source, Written] using hp.written, ?_⟩
  rw [source, resolve, hp.resolves]
  rfl

/-- A call of a function by its name. -/
theorem function (hn : isName n = true) (hr : n ∉ reservedWords) (hb : scope.binds n = false)
    (hk : scope.knows n = true) (ha : LegibleAll scope args) : (Expr.function s n args).Legible scope := by
  have plain : functionCallee s n = .name s n := by
    have : n.toList.dropWhile (· != '.') = [] := by
      refine List.dropWhile_eq_nil_iff.2 fun d hd => ?_
      exact bne_iff_ne.2 (ne_of_test (isName_parts hn d hd) (by decide +kernel))
    rw [functionCallee, this]
  refine ⟨?_, ?_⟩
  · rw [source, plain]
    simpa [Written] using ⟨⟨hn, hr⟩, ha.written⟩
  · rw [source, plain, resolve, ha.resolves]
    simp [hb, hk]

/-- A call of a function through a namespace. -/
theorem functionMember (hn : isName n = true) (hr : n ∉ reservedWords) (hp : isName p = true)
    (hb : scope.binds n = false) (hm : namespaces.contains n = true)
    (hk : scope.knows (n ++ "." ++ p) = true) (ha : LegibleAll scope args) :
    (Expr.function s (n ++ "." ++ p) args).Legible scope := by
  have text : (n ++ "." ++ p).toList = n.toList ++ '.' :: p.toList := by simp
  have letters : ∀ d ∈ n.toList, (d != '.') = true :=
    fun d hd => bne_iff_ne.2 (ne_of_test (isName_parts hn d hd) (by decide +kernel))
  have split : functionCallee s (n ++ "." ++ p) = .member s (.name s n) p false := by
    rw [functionCallee, text, List.dropWhile_append_of_pos letters, List.takeWhile_append_of_pos letters]
    simp
  refine ⟨?_, ?_⟩
  · rw [source, split]
    simpa [Written] using ⟨⟨hp, hn, hr⟩, ha.written⟩
  · rw [source, split, resolve, ha.resolves]
    simp only [hb, hm, hk, Bool.not_false, Bool.and_self, if_true]
    rfl

end Expr.Legible

/-! ## From resolution -/

/-- A name is a parameter that no value is given for, or is given a number without a sign. -/
def Bindings.Settles (values : Bindings) (scope : NameScope) (n : String) : Prop :=
  (scope.params.contains n = true ∧ values.lookup n = none) ∨
    ∃ i : Int64, 0 ≤ i ∧ values.lookup n = some (.int i)

section

variable {scope : NameScope} {values : Bindings}

theorem substitute_named (s : Span) (n : String) :
    (Expr.root s (.named n)).substitute values = .root s (.named n) := by
  unfold Root.named
  split
  · rfl
  · split <;> rfl

/-- A name is resolved to something that is resolved to itself; what is written is this name or can
be written in any case. -/
theorem resolve_source_name {n : String} (hn : isName n = true) (s : Span)
    (hs : ∀ m ∈ (Expr.root s (scope.root n)).boundNames, values.Settles scope m) :
    (((Expr.root s (scope.root n)).substitute values).source = .name s n ∨
      ((Expr.root s (scope.root n)).substitute values).source.Written) ∧
    ((Expr.root s (scope.root n)).substitute values).source.resolve scope.outside =
      .ok ((Expr.root s (scope.root n)).substitute values) := by
  by_cases hb : scope.binds n = true
  · have root : scope.root n = .bound n := if_pos hb
    rw [root] at hs ⊢
    rw [Expr.substitute]
    rcases hs n (by simp [Expr.boundNames]) with ⟨param, unset⟩ | ⟨i, hi, value⟩
    · rw [unset]
      refine ⟨.inl rfl, ?_⟩
      show Except.ok (Expr.root s (scope.outside.root n)) = _
      rw [NameScope.root, NameScope.binds_outside, if_pos param]
    · rw [value]
      have legible : (Expr.literal s (.int i)).Legible scope.outside := .literal hi
      exact ⟨.inr legible.written, legible.resolves⟩
  · have root : scope.root n = .named n := if_neg hb
    have legible : (Expr.root s (.named n)).Legible scope.outside := .named hn s
    rw [root, substitute_named]
    exact ⟨.inr legible.written, legible.resolves⟩

/-- The component comes from the component only. -/
theorem isSelf_source {raw x : Expr} (hr : raw.Resolves scope x) (hf : raw.isSelf = false)
    (hw : raw.Written) : (x.substitute values).source.isSelf = false := by
  have named (s : Span) (n : String) :
      ((Expr.root s (.named n)).substitute values).source.isSelf = false := by
    rw [substitute_named]
    unfold Root.named
    split
    · rfl
    · split <;> rfl
  cases hr with
  | root => exact hw.elim
  | self => cases hf
  | name s n =>
    by_cases bound : scope.binds n = true
    · rw [NameScope.root, if_pos bound, Expr.substitute]
      cases values.lookup n <;> rfl
    · rw [NameScope.root, if_neg bound]
      exact named s n
  | part s t p => exact named s p
  | _ => rfl

end

mutual

/-- What resolution gives can be written and is resolved again outside of all loops, after numbers
were put in place of loop variables. -/
theorem Expr.Resolves.legible {scope : NameScope} {values : Bindings} : ∀ {raw x : Expr},
    raw.Resolves scope x → raw.Written → (∀ n ∈ x.boundNames, values.Settles scope n) →
      (x.substitute values).Legible scope.outside
  | _, _, .literal s v, hw, _ => by
    rw [Expr.Written] at hw
    exact .literal hw
  | _, _, .template hp, hw, hs => by
    rw [Expr.Written] at hw
    rw [Expr.boundNames] at hs
    exact .template (hp.legible hw hs).1
  | _, _, .name s n, hw, hs => by
    rw [Expr.Written] at hw
    obtain ⟨source, resolves⟩ := resolve_source_name hw.1 s hs
    refine ⟨?_, resolves⟩
    rcases source with source | source
    · rw [source, Expr.Written]
      exact hw
    · exact source
  | _, _, .self s, _, _ => ⟨trivial, rfl⟩
  | _, _, .root .., hw, _ | _, _, .method _, hw, _ | _, _, .function _, hw, _ => by
    rw [Expr.Written] at hw
    exact hw.elim
  | _, _, .part s t p, hw, _ => by
    rw [Expr.Written] at hw
    rw [substitute_named]
    exact .named hw.1 s
  | _, _, .member value ho, hw, hs => by
    rw [Expr.Written] at hw
    rw [Expr.boundNames] at hs
    exact .member (ho.legible hw.2 hs) hw.1 (value.imp_left fun hf => isSelf_source ho hf hw.2)
  | _, _, .index ho hi, hw, hs => by
    rw [Expr.Written] at hw
    simp only [Expr.boundNames, Names.mem_union] at hs
    exact .index (ho.legible hw.1 fun n hn => hs n (.inl hn))
      (hi.legible hw.2 fun n hn => hs n (.inr hn))
  | _, _, .bareFunction free known ha, hw, hs => by
    rw [Expr.Written, Expr.Written] at hw
    exact .function hw.1.1 hw.1.2 (NameScope.not_binds_outside free) known (ha.legible hw.2 hs)
  | _, _, .bareMethod _ _ ha, hw, hs => by
    rw [Expr.Written, Expr.Written] at hw
    exact .method hw.1.1 (ha.legible hw.2 hs)
  | _, _, .ownMethod ha, hw, hs => by
    rw [Expr.Written, Expr.Written] at hw
    exact .method hw.1.1 (ha.legible hw.2 hs)
  | _, _, .namespaced free among known ha, hw, hs => by
    rw [Expr.Written, Expr.Written, Expr.Written] at hw
    exact .functionMember hw.1.2.1 hw.1.2.2 hw.1.1 (NameScope.not_binds_outside free) among known
      (ha.legible hw.2 hs)
  | _, _, .call value _ ho ha, hw, hs => by
    rw [Expr.Written, Expr.Written] at hw
    simp only [Expr.boundNames, Names.mem_union] at hs
    exact .call (ho.legible hw.1.2 fun n hn => hs n (.inl hn)) hw.1.1
      (value.imp_left fun hf => isSelf_source ho hf hw.1.2)
      (ha.legible hw.2 fun n hn => hs n (.inr hn))
  | _, _, .unary he, hw, hs => by
    rw [Expr.Written] at hw
    rw [Expr.boundNames] at hs
    exact .unary (he.legible hw hs)
  | _, _, .binary hl hr, hw, hs => by
    rw [Expr.Written] at hw
    simp only [Expr.boundNames, Names.mem_union] at hs
    exact .binary (hl.legible hw.1 fun n hn => hs n (.inl hn))
      (hr.legible hw.2 fun n hn => hs n (.inr hn))
  | _, _, .conditional hc ht he, hw, hs => by
    rw [Expr.Written] at hw
    simp only [Expr.boundNames, Names.mem_union] at hs
    exact .conditional (hc.legible hw.1 fun n hn => hs n (.inl (.inl hn)))
      (ht.legible hw.2.1 fun n hn => hs n (.inl (.inr hn)))
      (he.legible hw.2.2 fun n hn => hs n (.inr hn))
  | _, _, .array hi, hw, hs => by
    rw [Expr.Written] at hw
    rw [Expr.boundNames] at hs
    exact .array (hi.legible hw hs)
  | _, _, .object he, hw, hs => by
    rw [Expr.Written] at hw
    rw [Expr.boundNames] at hs
    exact .object (he.legible hw hs)

theorem ResolvesAll.legible {scope : NameScope} {values : Bindings} : ∀ {raw es : List Expr},
    ResolvesAll scope raw es → writtenAll raw → (∀ n ∈ boundNamesAll es, values.Settles scope n) →
      LegibleAll scope.outside (substituteAll values es)
  | _, _, .nil, _, _ => ⟨trivial, rfl⟩
  | _, _, .cons he hr, hw, hs => by
    rw [writtenAll] at hw
    simp only [boundNamesAll, Names.mem_union] at hs
    have first := he.legible hw.1 fun n hn => hs n (.inl hn)
    have others := hr.legible hw.2 fun n hn => hs n (.inr hn)
    refine ⟨⟨first.written, others.written⟩, ?_⟩
    rw [substituteAll, sourceAll, resolveAll, first.resolves, others.resolves]
    rfl

theorem ResolvesEntries.legible {scope : NameScope} {values : Bindings} :
    ∀ {raw entries : List (String × Expr)}, ResolvesEntries scope raw entries →
      writtenEntries raw → (∀ n ∈ boundNamesEntries entries, values.Settles scope n) →
        LegibleEntries scope.outside (substituteEntries values entries)
  | _, _, .nil, _, _ => ⟨trivial, rfl⟩
  | (k, raw) :: rest, (_, e) :: _, .cons he hr, hw, hs => by
    rw [writtenEntries] at hw
    simp only [boundNamesEntries, Names.mem_union] at hs
    have others := hr.legible hw.2 fun n hn => hs n (.inr hn)
    have first : ((∃ s, (e.substitute values).source = .name s k ∧ isName k = true ∧ k ∈ reservedWords) ∨
          (e.substitute values).source.Written) ∧
        (e.substitute values).source.resolve scope.outside = .ok (e.substitute values) := by
      rcases hw.1 with ⟨s, rfl, hk, reserved⟩ | written
      · cases he
        obtain ⟨source, resolves⟩ := resolve_source_name hk s fun n hn => hs n (.inl hn)
        exact ⟨source.imp (fun source => ⟨s, source, hk, reserved⟩) id, resolves⟩
      · have legible := he.legible written fun n hn => hs n (.inl hn)
        exact ⟨.inr legible.written, legible.resolves⟩
    refine ⟨⟨first.1, others.written⟩, ?_⟩
    rw [substituteEntries, sourceEntries, resolveEntries, first.2, others.resolves]
    rfl

theorem ResolvesParts.legible {scope : NameScope} {values : Bindings} :
    ∀ {raw parts : List TemplatePart}, ResolvesParts scope raw parts → writtenParts raw →
      (∀ n ∈ boundNamesParts parts, values.Settles scope n) →
        LegibleParts scope.outside (substituteParts values parts) ∧
          opensWithText (sourceParts (substituteParts values parts)) = opensWithText raw
  | _, _, .nil, _, _ => ⟨⟨trivial, rfl⟩, rfl⟩
  | _, _, .text hr, hw, hs => by
    rw [writtenParts] at hw
    rw [boundNamesParts] at hs
    obtain ⟨others, opens⟩ := hr.legible hw.2.2 hs
    refine ⟨⟨⟨hw.1, opens.trans hw.2.1, others.written⟩, ?_⟩, rfl⟩
    rw [substituteParts, sourceParts, resolveParts, others.resolves]
    rfl
  | _, _, .hole he hr, hw, hs => by
    rw [writtenParts] at hw
    simp only [boundNamesParts, Names.mem_union] at hs
    have first := he.legible hw.1 fun n hn => hs n (.inl hn)
    have others := (hr.legible hw.2 fun n hn => hs n (.inr hn)).1
    refine ⟨⟨⟨first.written, others.written⟩, ?_⟩, rfl⟩
    rw [substituteParts, sourceParts, resolveParts, first.resolves, others.resolves]
    rfl

end

/-! ## Handlers -/

theorem Expr.locals_of_resolveHandler {scope : NameScope} {raw : Expr} {handler : HandlerSource}
    (h : raw.resolveHandler scope = .ok handler) : handler.locals = handler.expr.boundNames := by
  unfold Expr.resolveHandler at h
  split at h
  all_goals
    obtain ⟨e, -, h⟩ := results_of_bind h
    cases h
    rfl

theorem Expr.resolveHandler_of_resolve {scope : NameScope} {e x : Expr} (h : e.resolve scope = .ok x) :
    e.resolveHandler scope = .ok ⟨x, x.boundNames⟩ := by
  cases e with
  | arrow => cases h
  | _ =>
    rw [Expr.resolveHandler, h]
    · rfl
    · rintro _ _ _ ⟨⟩

/-- A handler with numbers in place of its loop variables can be written and is resolved again
outside of all loops. -/
theorem Expr.Written.legible_handler {knows : String → Bool} {loopVars : List String} {raw : Expr}
    {handler : HandlerSource} {values : Bindings} (hw : raw.Written)
    (hr : raw.resolveHandler ⟨knows, loopVars, []⟩ = .ok handler)
    (hs : ∀ n ∈ handler.locals, ∃ i : Int64, 0 ≤ i ∧ values.lookup n = some (.int i)) :
    (handler.expr.substitute values).source.Written ∧
      (handler.expr.substitute values).source.resolveHandler ⟨knows, [], []⟩ =
        .ok ⟨handler.expr.substitute values, (handler.expr.substitute values).boundNames⟩ := by
  rw [Expr.locals_of_resolveHandler hr] at hs
  unfold Expr.resolveHandler at hr
  split at hr
  case h_1 s params body =>
    obtain ⟨body', hb, hr⟩ := results_of_bind hr
    cases hr
    rw [Expr.Written] at hw
    have legible : (body'.substitute (values.filter fun b => !params.contains b.1)).Legible
        ⟨knows, [], params⟩ := by
      refine (Expr.resolves_of_resolve hb).legible hw.2 fun n hn => ?_
      unfold Bindings.Settles
      rw [lookup_filter values (fun m => !params.contains m)]
      by_cases param : params.contains n = true
      · exact .inl ⟨param, by rw [param]; rfl⟩
      · right
        rw [Bool.not_eq_true] at param
        obtain ⟨i, hi, value⟩ := hs n (List.mem_filter.2 ⟨hn, by rw [param]; rfl⟩)
        exact ⟨i, hi, by rw [param]; exact value⟩
    refine ⟨?_, ?_⟩
    · rw [Expr.substitute, Expr.source, Expr.Written]
      exact ⟨hw.1, legible.written⟩
    · rw [Expr.substitute, Expr.source, Expr.resolveHandler, legible.resolves]
      rfl
  case h_2 =>
    obtain ⟨x, hx, hr⟩ := results_of_bind hr
    cases hr
    have legible := (Expr.resolves_of_resolve hx).legible hw fun n hn => .inr (hs n hn)
    exact ⟨legible.written, Expr.resolveHandler_of_resolve legible.resolves⟩

end LiveTemplate
