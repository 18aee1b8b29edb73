/-
The expressions of a program. Whatever a builder appends, the expressions that are evaluated while
the program runs were resolved, and loops bind at least one variable; filling in targets changes
neither.
-/
import LiveTemplate.Proofs.Expr.Resolved
import LiveTemplate.Proofs.Program.Compilation

namespace LiveTemplate

open Markup

/-- An instruction evaluates resolved expressions only and binds a variable if it is a loop. -/
def Instr.Sound : Instr → Prop
  | setAttributeExpr _ e _ | emit e _ _ | branch e _ _ => e.Resolved
  | openLoop _ binding e _ => e.Resolved ∧ binding.params ≠ []
  | _ => True

/-! ## Loop headers -/

/-- A binding has a parameter, and an index only beside a single one. -/
def LoopBinding.Fits (b : LoopBinding) : Prop :=
  b.params ≠ [] ∧ (b.indexParam.isSome = true → b.params.length = 1)

namespace Markup.Directive

/-- A directive that opens a loop has a binding that fits. -/
def Sound : Directive → Prop
  | eachOpen _ binding | forOpen binding _ => binding.Fits
  | _ => True

/-- Where reading a directive gives one, it is sound. -/
def Reads (x : Except Fault Directive) : Prop := ∀ d, x = .ok d → d.Sound

theorem reads_ok {d : Directive} (h : d.Sound) : Reads (.ok d) := by
  rintro _ ⟨⟩
  exact h

theorem reads_error (fault : Fault) : Reads (.error fault) := fun _ h => nomatch h

theorem reads_bind {α : Type} {x : Except Fault α} {f : α → Except Fault Directive}
    (h : ∀ a, x = .ok a → Reads (f a)) : Reads (x >>= f) := by
  intro d hd
  obtain ⟨a, ha, hf⟩ := results_of_bind hd
  exact h a ha d hf

theorem reads_map {α : Type} {x : Except Fault α} {f : α → Directive} (h : ∀ a, (f a).Sound) :
    Reads (x.map f) := by
  cases x with
  | error fault => exact reads_error fault
  | ok a => exact reads_ok (h a)

theorem reads_ite {c : Prop} [Decidable c] {x y : Except Fault Directive} (hx : Reads x)
    (hy : Reads y) : Reads (if c then x else y) := by
  split
  · exact hx
  · exact hy

theorem parseBinding_fits {region : Region} {binding : LoopBinding}
    (h : parseBinding region = .ok binding) : binding.Fits := by
  unfold parseBinding at h
  obtain ⟨ts, -, h⟩ := results_of_bind h
  obtain ⟨params, -, h⟩ := results_of_bind h
  simp only at h
  by_cases hp : (params.isEmpty || ((unbracket ts).getD ts).length % 2 == 0) = true
  · rw [if_pos hp] at h
    cases h
  · rw [if_neg hp] at h
    cases h
    constructor
    · rintro rfl
      exact hp rfl
    · intro hi
      by_contra several
      simp [several] at hi

theorem parse_reads (region : Region) : Reads (Directive.parse region) := by
  unfold Directive.parse
  refine reads_ite (reads_ok trivial) ?_
  extract_lets length head rest needed alone
  split
  · exact reads_map fun _ => trivial
  · exact reads_map fun _ => trivial
  · refine reads_bind fun rest _ => ?_
    split
    · exact reads_error _
    · exact reads_bind fun binding hb => reads_ok (parseBinding_fits hb)
  · refine reads_bind fun rest _ => ?_
    split
    · exact reads_error _
    · refine reads_bind fun binding hb => reads_bind fun collection _ => ?_
      exact reads_ok (parseBinding_fits hb)
  · split
    · exact reads_ok trivial
    · exact reads_map fun _ => trivial
    · exact reads_map fun _ => trivial
    · exact reads_map fun _ => trivial
    · exact reads_error _
  · exact reads_ite (reads_ok trivial) (reads_error _)
  · exact reads_ite (reads_ok trivial) (reads_error _)
  · exact reads_ite (reads_ok trivial) (reads_error _)
  · exact reads_ite (reads_ok trivial) (reads_error _)
  · exact reads_map fun _ => trivial
  · exact reads_map fun _ => trivial
  · exact reads_error _

end Markup.Directive

/-! ## Builders -/

namespace Builder

variable {knows : String → Bool} {b b' : Builder}

/-- All instructions of a builder are sound. -/
def Sound (b : Builder) : Prop := ∀ instr ∈ b.instrs.toList, instr.Sound

theorem Sound.push (h : b.Sound) (instr : Instr) (hi : instr.Sound) : (b.push instr).Sound := by
  intro x hx
  rw [Builder.push, Array.toList_push, List.mem_append, List.mem_singleton] at hx
  rcases hx with hx | rfl
  · exact h x hx
  · exact hi

theorem mem_modify {α : Type} {f : α → α} {x : α} : ∀ {l : List α} {i : Nat},
    x ∈ l.modify i f → ∃ y ∈ l, x = y ∨ x = f y
  | [], i, h => by simp at h
  | a :: l, 0, h => by
    rcases List.mem_cons.1 h with rfl | h
    · exact ⟨a, List.mem_cons_self, .inr rfl⟩
    · exact ⟨x, List.mem_cons_of_mem _ h, .inl rfl⟩
  | a :: l, i + 1, h => by
    rcases List.mem_cons.1 h with rfl | h
    · exact ⟨x, List.mem_cons_self, .inl rfl⟩
    · obtain ⟨y, hy, hxy⟩ := mem_modify h
      exact ⟨y, List.mem_cons_of_mem _ hy, hxy⟩

theorem sound_retarget {instr : Instr} (target : Nat) (h : instr.Sound) :
    (retarget target instr).Sound := by
  cases instr <;> exact h

theorem sound_setStop {instr : Instr} (stop : Nat) (h : instr.Sound) :
    (setStop stop instr).Sound := by
  cases instr <;> exact h

theorem Sound.patch (h : b.Sound) (pc : Nat) : (b.patch pc).Sound := by
  intro x hx
  rw [Builder.patch, Array.toList_modify] at hx
  obtain ⟨y, hy, rfl | rfl⟩ := mem_modify hx
  · exact h x hy
  · exact sound_retarget _ (h y hy)

theorem Sound.foldl_patch (h : b.Sound) (pcs : List Nat) : (pcs.foldl Builder.patch b).Sound := by
  induction pcs generalizing b with
  | nil => exact h
  | cons pc rest ih => exact ih (h.patch pc)

theorem Sound.closeWith (h : b.Sound) (opened : Nat) {instr : Instr} (hi : instr.Sound) :
    (b.closeWith opened instr).Sound := by
  intro x hx
  rw [Builder.closeWith, Array.toList_modify] at hx
  obtain ⟨y, hy, rfl | rfl⟩ := mem_modify hx
  · exact h.push instr hi x hy
  · exact sound_setStop _ (h.push instr hi y hy)

theorem expr_resolved {region : Region} {e : Expr} (h : b.expr knows region = .ok e) :
    e.Resolved := by
  obtain ⟨raw, -, h⟩ := results_of_bind h
  exact (Expr.resolves_of_resolve h).resolved

theorem addAttribute_sound (h : b.Sound) {a : Attribute} (ha : addAttribute knows b a = .ok b') :
    b'.Sound := by
  unfold addAttribute at ha
  cases hv : a.value with
  | plain value =>
    rw [hv] at ha
    cases ha
    exact h.push _ trivial
  | flag =>
    rw [hv] at ha
    cases ha
    exact h.push _ trivial
  | dynamic region =>
    rw [hv] at ha
    cases he : a.event? with
    | some event =>
      rw [he] at ha
      obtain ⟨handler, -, ha⟩ := results_of_bind ha
      cases ha
      exact h.push _ trivial
    | none =>
      rw [he] at ha
      obtain ⟨e, hr, ha⟩ := results_of_bind ha
      cases ha
      exact Sound.push h _ (expr_resolved hr)

theorem addAttributes_sound : ∀ {attributes : List Attribute} {b : Builder}, b.Sound →
    attributes.foldlM (addAttribute knows) b = .ok b' → b'.Sound
  | [], b, h, ha => by
    cases ha
    exact h
  | a :: rest, b, h, ha => by
    rw [List.foldlM_cons] at ha
    obtain ⟨b₁, h₁, ha⟩ := results_of_bind ha
    exact addAttributes_sound (addAttribute_sound h h₁) ha

theorem openTag_sound (h : b.Sound) {tag : Tag} (ho : b.openTag knows tag = .ok b') : b'.Sound := by
  unfold openTag at ho
  obtain ⟨b₁, h₁, ho⟩ := results_of_bind ho
  have sound := addAttributes_sound (h.push (.createElement tag.name (elementKey tag)) trivial) h₁
  split at ho
  · cases ho
    exact sound.push _ trivial
  · cases ho
    exact sound

theorem closeTag_sound (h : b.Sound) {tag : Tag} (hc : b.closeTag tag = .ok b') : b'.Sound := by
  unfold closeTag at hc
  simp only at hc
  split at hc
  · split at hc
    · cases hc
    · split at hc
      · cases hc
        exact Sound.push h _ trivial
      · cases hc
  · cases hc

theorem popBlock_sound (h : b.Sound) {kind : BlockKind} {directive : Directive} {span : Span}
    {popped : OpenBlock × Builder} (hp : b.popBlock kind directive span = .ok popped) :
    popped.2.Sound := by
  unfold popBlock at hp
  split at hp
  · cases hp
  · split at hp
    · cases hc : b.checkElements _ with
      | error fault =>
        rw [hc] at hp
        cases hp
      | ok _ =>
        rw [hc] at hp
        cases hp
        exact h
    · cases hp

theorem endClause_sound (h : b.Sound) (block : OpenBlock) : (b.endClause block).1.Sound := by
  unfold endClause
  cases block.pending with
  | none => exact h.push _ trivial
  | some pc => exact (h.push (.jump pendingTarget) trivial).patch pc

theorem openConditional_sound (h : b.Sound) {kind : BlockKind} {test : Region} {span : Span}
    (ho : b.openConditional knows kind test span = .ok b') : b'.Sound := by
  obtain ⟨e, he, ho⟩ := results_of_bind ho
  cases ho
  have opened : (b.push (.openConditional b.actions.size pendingTarget)).Sound := h.push _ trivial
  exact opened.push (.branch e (kind == .unlessBlock) pendingTarget) (expr_resolved he)

theorem openLoop_sound (h : b.Sound) {kind : BlockKind} {collection : Region}
    {binding : LoopBinding} {span : Span} (hb : binding.params ≠ [])
    (ho : b.openLoop knows kind collection binding span = .ok b') : b'.Sound := by
  obtain ⟨e, he, ho⟩ := results_of_bind ho
  cases ho
  have opened : (b.push (.openLoop b.actions.size binding e pendingTarget)).Sound :=
    h.push _ ⟨expr_resolved he, hb⟩
  exact opened.push (.iterate pendingTarget) trivial

theorem addElseIf_sound (h : b.Sound) {directive : Directive} {test : Region} {span : Span}
    (ha : b.addElseIf knows directive test span = .ok b') : b'.Sound := by
  obtain ⟨block, -, ha⟩ := results_of_bind ha
  obtain ⟨e, he, ha⟩ := results_of_bind ha
  cases ha
  have read : (b.addReads block.action e).Sound := h
  have ended := endClause_sound read block
  exact ended.push (.branch e false pendingTarget) (expr_resolved he)

theorem addElse_sound (h : b.Sound) {directive : Directive} {span : Span}
    (ha : b.addElse directive span = .ok b') : b'.Sound := by
  obtain ⟨block, -, ha⟩ := results_of_bind ha
  cases ha
  exact endClause_sound h block

theorem closeConditional_sound (h : b.Sound) {kind : BlockKind} {directive : Directive}
    {span : Span} (hc : b.closeConditional kind directive span = .ok b') : b'.Sound := by
  obtain ⟨popped, hp, hc⟩ := results_of_bind hc
  cases hc
  exact ((popBlock_sound h hp).foldl_patch _).closeWith _ trivial

theorem closeLoop_sound (h : b.Sound) {kind : BlockKind} {directive : Directive} {span : Span}
    (hc : b.closeLoop kind directive span = .ok b') : b'.Sound := by
  obtain ⟨popped, hp, hc⟩ := results_of_bind hc
  cases hc
  have jumped := (popBlock_sound h hp).push (.jump (popped.1.opened + 1)) trivial
  exact (jumped.patch (popped.1.opened + 1)).closeWith popped.1.opened trivial

theorem addEmit_sound (h : b.Sound) {region : Region} {mode : EmitMode}
    (ha : b.addEmit knows region mode = .ok b') : b'.Sound := by
  obtain ⟨e, he, ha⟩ := results_of_bind ha
  cases ha
  exact Sound.push h (.emit e mode b.actions.size) (expr_resolved he)

theorem addDirective_sound (h : b.Sound) {directive : Directive} {span : Span}
    (hs : directive.Sound) (hd : b.addDirective knows directive span = .ok b') : b'.Sound := by
  cases directive with
  | ifOpen test | unlessOpen test => exact openConditional_sound h hd
  | elseIf test => exact addElseIf_sound h hd
  | elseOnly => exact addElse_sound h hd
  | eachOpen collection binding | forOpen binding collection => exact openLoop_sound h hs.1 hd
  | ifClose | unlessClose => exact closeConditional_sound h hd
  | eachClose | forClose => exact closeLoop_sound h hd
  | html e | json e | expression e => exact addEmit_sound h hd

theorem addText_sound (h : b.Sound) (text : List Char) : (b.addText text).Sound := by
  unfold addText
  split
  · exact h
  · exact h.push _ trivial

theorem addToken_sound (h : b.Sound) {source : List Char} {token : Markup.Token}
    (ht : b.addToken knows source token = .ok b') : b'.Sound := by
  unfold addToken at ht
  split at ht
  · cases ht
    exact addText_sound h _
  · cases ht
    exact addText_sound h _
  · split at ht
    · cases ht
      exact h.push _ trivial
    · obtain ⟨tag, -, ht⟩ := results_of_bind ht
      split at ht
      · exact closeTag_sound h ht
      · exact openTag_sound h ht
  · obtain ⟨directive, hd, ht⟩ := results_of_bind ht
    exact addDirective_sound h (Directive.parse_reads _ directive hd) ht

theorem foldlM_addToken_sound {source : List Char} : ∀ {tokens : List Markup.Token} {b : Builder},
    b.Sound → tokens.foldlM (addToken knows source) b = .ok b' → b'.Sound
  | [], b, h, ht => by
    cases ht
    exact h
  | token :: rest, b, h, ht => by
    rw [List.foldlM_cons] at ht
    obtain ⟨b₁, h₁, ht⟩ := results_of_bind ht
    exact foldlM_addToken_sound (addToken_sound h h₁) ht

end Builder

/-- The instructions of a compiled program are sound. -/
theorem compile_sound {knows : String → Bool} {source : String} {program : Program}
    (h : (compile knows source).program = .ok program) :
    ∀ instr ∈ program.instrs.toList, instr.Sound := by
  rw [compile_program] at h
  obtain ⟨b, hb, h⟩ := results_of_bind h
  have empty : Builder.empty.Sound := fun _ hx => absurd hx List.not_mem_nil
  have sound : b.Sound := Builder.foldlM_addToken_sound empty hb
  split at h
  · cases h
  · unfold Builder.finish at h
    split at h
    · cases h
    · cases h
      intro instr hi
      rw [Array.toList_append, List.mem_append] at hi
      rcases hi with hi | hi
      · exact sound instr hi
      · rw [(List.mem_replicate.1 hi).2]
        trivial

end LiveTemplate
