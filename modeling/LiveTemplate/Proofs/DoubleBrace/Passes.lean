/-
What each pass over a source of the older dialect does: recognising the dialect, unifying its
brackets, putting fragments in place and converting its tags.
-/
import LiveTemplate.DoubleBrace
import LiveTemplate.Proofs.Computation

namespace LiveTemplate.DoubleBrace

open Text

variable {p cs rest : List Char} {x y : Char}

/-! ## Occurrences -/

theorem splitAt?_eq_none_iff (p cs : List Char) : splitAt? p cs = none ↔ ¬ p <:+: cs := by
  induction cs with
  | nil => simp [splitAt?]
  | cons c cs ih =>
    rw [List.infix_cons_iff, splitAt?]
    split
    · rename_i starts
      simp [List.isPrefixOf_iff_prefix.1 starts]
    · rename_i starts
      simp [List.isPrefixOf_iff_prefix.not.1 starts, ih]

theorem occurs_iff (pattern : String) (cs : List Char) :
    occurs pattern cs = true ↔ pattern.toList <:+: cs := by
  rw [occurs, ← Option.not_isNone, Bool.not_eq_true', ← Bool.not_eq_true, Option.isNone_iff_eq_none,
    splitAt?_eq_none_iff, not_not]

/-- A pattern is found at its first occurrence. -/
theorem splitAt?_append (p a b : List Char) :
    ∃ before after, splitAt? p (a ++ p ++ b) = some (before, after) ∧ before.length ≤ a.length := by
  induction a with
  | nil =>
    refine ⟨[], b, ?_, le_rfl⟩
    cases p with
    | nil => cases b <;> simp [splitAt?]
    | cons c p => simp [splitAt?, List.isPrefixOf_iff_prefix]
  | cons c a ih =>
    obtain ⟨before, after, found, le⟩ := ih
    by_cases starts : p.isPrefixOf (c :: (a ++ p ++ b)) = true
    · refine ⟨[], (c :: (a ++ p ++ b)).drop p.length, ?_, by simp⟩
      simp only [List.cons_append, splitAt?, if_pos starts]
    · refine ⟨c :: before, after, ?_, by simpa using le⟩
      simp only [List.cons_append, splitAt?, if_neg starts, found, Option.map_some]

theorem splitAtLast?_eq {before after : List Char} (h : splitAtLast? p cs = some (before, after)) :
    cs = before ++ p ++ after := by
  induction cs generalizing before with
  | nil => cases h
  | cons c cs ih =>
    rw [splitAtLast?] at h
    split at h
    · rename_i found
      cases h
      rw [ih found]
      rfl
    · split at h
      · rename_i starts
        cases h
        exact (List.prefix_iff_eq_append.1 (List.isPrefixOf_iff_prefix.1 starts)).symm
      · cases h

/-- A pattern that begins with two given characters is not cut by the end of a text that neither
holds them nor ends between them. -/
theorem infix_of_append {q : List Char} (free : ¬ [x, y] <:+: cs)
    (border : cs.getLast? = some x → rest.head? ≠ some y) (h : x :: y :: q <:+: cs ++ rest) :
    x :: y :: q <:+: rest := by
  induction cs with
  | nil => exact h
  | cons c cs ih =>
    rw [List.cons_append, List.infix_cons_iff] at h
    rw [List.infix_cons_iff, not_or] at free
    cases h with
    | inl starts =>
      cases cs with
      | nil =>
        -- the first character is the last one of the text, the second begins the rest
        cases rest with
        | nil => simp at starts
        | cons d rest =>
          simp only [List.nil_append, List.cons_prefix_cons] at starts
          simp [starts.1, starts.2.1] at border
      | cons d cs =>
        simp only [List.cons_append, List.cons_prefix_cons] at starts
        simp [starts.1, starts.2.1] at free
    | inr inside =>
      refine ih free.2 ?_ inside
      intro last
      cases cs with
      | nil => cases last
      | cons d cs => exact border (by rwa [List.getLast?_cons_cons])

theorem infix_of_append_free {q : List Char} (free : x ∉ cs) (h : x :: y :: q <:+: cs ++ rest) :
    x :: y :: q <:+: rest := by
  refine infix_of_append ?_ ?_ h
  · intro inside
    exact free (inside.subset (by simp))
  · intro last
    exact absurd (List.mem_of_getLast? last) free

/-! ## Recognition and unification -/

/-- A source that opens a tag and closes one afterwards is of the older dialect. -/
theorem detect_of_tag (a b c : List Char) :
    detect (a ++ "\x7b\x7b".toList ++ (b ++ "\x7d\x7d".toList ++ c)) = true := by
  obtain ⟨before, after, found, le⟩ :=
    splitAt?_append "\x7b\x7b".toList a (b ++ "\x7d\x7d".toList ++ c)
  have closes : occurs "\x7d\x7d" ((a ++ "\x7b\x7b".toList ++
      (b ++ "\x7d\x7d".toList ++ c)).drop before.length) = true := by
    rw [occurs_iff, List.append_assoc, List.drop_append_of_le_length le]
    refine (List.infix_append b _ c).trans ?_
    exact (List.suffix_append _ _).isInfix.trans (List.suffix_append _ _).isInfix
  unfold detect fromFirst?
  rw [found]
  show (occurs "\x7d\x7d" _ || occurs "%\x7d" _) = true
  rw [closes, Bool.true_or]

theorem unifyOpen_of_free (h : ¬ ['{', '%'] <:+: cs) : unifyOpen cs = cs := by
  fun_induction unifyOpen cs with
  | case1 rest ih => simp [List.infix_cons_iff] at h
  | case2 c rest _ ih => rw [ih (fun inside => h (inside.trans (List.suffix_cons c rest).isInfix))]
  | case3 => rfl

theorem unifyClose_of_free (h : ¬ ['%', '}'] <:+: cs) : unifyClose cs = cs := by
  fun_induction unifyClose cs with
  | case1 rest ih => simp [List.infix_cons_iff] at h
  | case2 c rest _ ih => rw [ih (fun inside => h (inside.trans (List.suffix_cons c rest).isInfix))]
  | case3 => rfl

/-! ## Fragments -/

theorem splitRegion?_of_free {r : Region} (h : ¬ p <:+: r.text) : splitRegion? p r = none := by
  rw [splitRegion?, (splitAt?_eq_none_iff p r.text).2 h, Option.map_none]

theorem collect_of_free {r : Region} (fuel : Nat) (h : ¬ blockOpen <:+: r.text) :
    collect fuel r = .ok ⟨[r], []⟩ := by
  cases fuel with
  | zero => rfl
  | succ fuel => rw [collect, splitRegion?_of_free h]

theorem expandAll_of_free {r : Region} (h : ¬ referenceOpen <:+: r.text) :
    (Fragments.mk [r] []).expandAll = .ok r.text := by
  have copied : expand [] 1 [] r = .ok r.text := by
    rw [expand]
    cases r.text.length with
    | zero => rfl
    | succ fuel => rw [expandWith, splitRegion?_of_free h]
  simp [Fragments.expandAll, copied, Except.map]

/-! ## Tags -/

/-- Text without quotes is inside of a tag up to the first closing bracket. -/
theorem closeTag?_append (closing : List Char) {inside : List Char}
    (free : ∀ c ∈ inside, c ∉ ['"', '\'', '\x7d']) (rest : List Char) :
    closeTag? ('}' :: closing) none (inside ++ ('}' :: closing) ++ rest) = some (inside, rest) := by
  induction inside with
  | nil => simp [closeTag?, List.isPrefixOf_iff_prefix]
  | cons c inside ih =>
    obtain ⟨first, others⟩ := List.forall_mem_cons.1 free
    simp only [List.mem_cons, List.not_mem_nil, or_false, not_or] at first
    have open_ : ¬ ('}' :: closing).isPrefixOf (c :: (inside ++ ('}' :: closing) ++ rest)) = true := by
      simp [List.isPrefixOf_iff_prefix, Ne.symm first.2.2]
    rw [List.cons_append, List.cons_append, closeTag?, if_neg (by simp [first.1, first.2.1]),
      if_neg open_, ih others]
    rfl

/-- A closing bracket splits a text into what stands before and after it. -/
theorem closeTag?_eq {closing : List Char} {quote : Option Char} {inside after : List Char}
    (h : closeTag? closing quote cs = some (inside, after)) : cs = inside ++ closing ++ after := by
  fun_induction closeTag? closing quote cs generalizing inside after with
  | case1 => cases h
  | case2 q c rest ih =>
    obtain ⟨⟨inside', after'⟩, found, eq⟩ := Option.map_eq_some_iff.1 h
    cases eq
    rw [ih found]
    rfl
  | case3 q c rest _ ih =>
    obtain ⟨⟨inside', after'⟩, found, eq⟩ := Option.map_eq_some_iff.1 h
    cases eq
    rw [ih found]
    rfl
  | case4 c rest _ ih =>
    obtain ⟨⟨inside', after'⟩, found, eq⟩ := Option.map_eq_some_iff.1 h
    cases eq
    rw [ih found]
    rfl
  | case5 c rest _ starts =>
    cases h
    exact (List.prefix_iff_eq_append.1 (List.isPrefixOf_iff_prefix.1 starts)).symm
  | case6 c rest _ _ ih =>
    obtain ⟨⟨inside', after'⟩, found, eq⟩ := Option.map_eq_some_iff.1 h
    cases eq
    rw [ih found]
    rfl

theorem length_of_closeTag? {closing : List Char} {quote : Option Char} {inside after : List Char}
    (h : closeTag? closing quote cs = some (inside, after)) : after.length ≤ cs.length := by
  rw [closeTag?_eq h, List.length_append]
  omega

/-- What a text is made of. -/
inductive Piece where
  | char (c : Char)
  /-- A single brace, and the character after it. -/
  | brace (next : Option Char)
  /-- A tag, and what it is turned into. -/
  | tag (inside shown : List Char)
  | triple (inside : List Char)
deriving DecidableEq

/-- What a piece is turned into. -/
def Piece.written : Piece → List Char
  | char c => [c]
  | brace _ => ['\\', '{']
  | tag _ shown => shown
  | triple inside => braced "@html " (trim inside)

/-- The pieces of a text, in their order. -/
inductive Cut : List Char → List Piece → Prop where
  | nil : Cut [] []
  | char {c rest pieces} (hc : c ≠ '{') (h : Cut rest pieces) : Cut (c :: rest) (.char c :: pieces)
  | brace {rest pieces} (single : rest.head? ≠ some '{') (h : Cut rest pieces) :
    Cut ('{' :: rest) (.brace rest.head? :: pieces)
  | tag {rest inside after shown pieces} (double : rest.head? ≠ some '{')
    (closed : closeTag? tagClose none rest = some (inside, after))
    (converted : ∀ span, convertTag inside span = .ok shown) (h : Cut after pieces) :
    Cut ('{' :: '{' :: rest) (.tag inside shown :: pieces)
  | triple {rest inside after pieces}
    (closed : closeTag? "\x7d\x7d\x7d".toList none rest = some (inside, after))
    (h : Cut after pieces) : Cut ('{' :: '{' :: '{' :: rest) (.triple inside :: pieces)

/-- What a tag is turned into does not depend on where it stands, only the place of its error. -/
theorem convertTag_at (inside : List Char) (span span' : Span) :
    convertTag inside span' = (convertTag inside span).mapError fun f => { f with span := span' } := by
  unfold convertTag
  dsimp only
  simp only [apply_ite (Except.mapError _)]
  rfl

theorem convertTag_span {inside shown : List Char} {span : Span}
    (h : convertTag inside span = .ok shown) (span' : Span) : convertTag inside span' = .ok shown := by
  rw [convertTag_at inside span, h]
  rfl

/-- Converting a text gives what its pieces are turned into. -/
theorem Cut.convert {pieces : List Piece} (h : Cut cs pieces) {fuel : Nat} (enough : cs.length ≤ fuel)
    (pos : Nat) : convert fuel pos cs = .ok (pieces.flatMap Piece.written) := by
  induction h generalizing fuel pos with
  | nil => cases fuel <;> rfl
  | char hc _ ih =>
    obtain _ | fuel := fuel
    · cases enough
    · rw [DoubleBrace.convert, ih (Nat.le_of_succ_le_succ enough)]
      · rfl
      all_goals simp_all
  | brace single _ ih =>
    obtain _ | fuel := fuel
    · cases enough
    · rw [DoubleBrace.convert, ih (Nat.le_of_succ_le_succ enough)]
      · rfl
      all_goals
        intros
        simp_all
  | @tag rest inside after shown pieces double closed converted _ ih =>
    obtain _ | fuel := fuel
    · cases enough
    · have shorter : after.length ≤ fuel := by
        have := length_of_closeTag? closed
        simp only [List.length_cons] at enough
        omega
      rw [DoubleBrace.convert]
      · simp only [closed, converted, ih shorter]
        rfl
      all_goals
        intros
        simp_all
  | @triple rest inside after pieces closed _ ih =>
    obtain _ | fuel := fuel
    · cases enough
    · have shorter : after.length ≤ fuel := by
        have := length_of_closeTag? closed
        simp only [List.length_cons] at enough
        omega
      rw [DoubleBrace.convert]
      simp only [closed, ih shorter]
      rfl

theorem cut_of_convert {fuel pos : Nat} {out : List Char} (enough : cs.length ≤ fuel)
    (h : convert fuel pos cs = .ok out) :
    ∃ pieces, Cut cs pieces ∧ out = pieces.flatMap Piece.written := by
  fun_induction DoubleBrace.convert fuel pos cs generalizing out with
  | case1 pos cs =>
    cases h
    rw [List.length_eq_zero_iff.1 (Nat.le_zero.1 enough)]
    exact ⟨[], .nil, rfl⟩
  | case2 =>
    cases h
    exact ⟨[], .nil, rfl⟩
  | case3 => cases h
  | case4 fuel pos rest inside after closed ih =>
    obtain ⟨others, converted, eq⟩ := results_of_bind h
    cases eq
    have shorter : after.length ≤ fuel := by
      have := length_of_closeTag? closed
      simp only [List.length_cons] at enough
      omega
    obtain ⟨pieces, cut, rfl⟩ := ih shorter converted
    exact ⟨_, .triple closed cut, rfl⟩
  | case5 => cases h
  | case6 fuel pos rest double inside after closed ih =>
    obtain ⟨shown, tag, h⟩ := results_of_bind h
    obtain ⟨others, converted, eq⟩ := results_of_bind h
    cases eq
    have shorter : after.length ≤ fuel := by
      have := length_of_closeTag? closed
      simp only [List.length_cons] at enough
      omega
    obtain ⟨pieces, cut, rfl⟩ := ih shorter converted
    have double : rest.head? ≠ some '{' := by
      cases rest <;> simp_all
    exact ⟨_, .tag double closed (convertTag_span tag) cut, rfl⟩
  | case7 fuel pos rest _ single ih =>
    obtain ⟨others, converted, rfl⟩ := results_of_map h
    obtain ⟨pieces, cut, rfl⟩ := ih (Nat.le_of_succ_le_succ enough) converted
    have single : rest.head? ≠ some '{' := by
      cases rest <;> simp_all
    exact ⟨_, .brace single cut, rfl⟩
  | case8 fuel pos c rest _ _ plain ih =>
    obtain ⟨others, converted, rfl⟩ := results_of_map h
    obtain ⟨pieces, cut, rfl⟩ := ih (Nat.le_of_succ_le_succ enough) converted
    exact ⟨_, .char plain cut, rfl⟩

/-! ## The whole -/

/-- The text that is converted: with unified brackets, and fragments in place of references. -/
def expansion (source : List Char) : Except Fault (List Char) := do
  let unified := unifyClose (unifyOpen source)
  let fragments ← collect unified.length ⟨0, unified⟩
  fragments.expandAll

/-- A source without opening percent brackets, declarations and references is converted with its
closing brackets unified. -/
theorem expansion_of_opens {source : List Char} (opens : ¬ ['{', '%'] <:+: source)
    (block : ¬ blockOpen <:+: unifyClose source)
    (reference : ¬ referenceOpen <:+: unifyClose source) :
    expansion source = .ok (unifyClose source) := by
  unfold expansion
  dsimp only
  rw [unifyOpen_of_free opens, collect_of_free (r := ⟨0, unifyClose source⟩) _ block]
  exact expandAll_of_free (r := ⟨0, unifyClose source⟩) reference

/-- A source without percent brackets, declarations and references is converted as it is. -/
theorem expansion_of_free {source : List Char} (opens : ¬ ['{', '%'] <:+: source)
    (closes : ¬ ['%', '}'] <:+: source) (block : ¬ blockOpen <:+: source)
    (reference : ¬ referenceOpen <:+: source) : expansion source = .ok source := by
  have unified : unifyClose source = source := unifyClose_of_free closes
  rw [expansion_of_opens opens (by rwa [unified]) (by rwa [unified]), unified]

/-- A source of the older dialect gives what the pieces of its expansion are turned into. -/
theorem normalize_eq_ok_iff {source out : String} (dialect : detect source.toList = true) :
    normalize source = .ok out ↔ ∃ text pieces, expansion source.toList = .ok text ∧
      Cut text pieces ∧ out = String.ofList (pieces.flatMap Piece.written) := by
  unfold normalize expansion
  simp only [dialect, Bool.not_true, Bool.false_eq_true, if_false]
  generalize unifyClose (unifyOpen source.toList) = unified
  cases collect unified.length ⟨0, unified⟩ with
  | error fault => simp [bind, Except.bind, Except.mapError]
  | ok fragments =>
    simp only [Except.mapError, bind, Except.bind]
    cases fragments.expandAll with
    | error fault => simp
    | ok text =>
      dsimp only
      constructor
      · intro h
        cases hc : convert text.length 0 text with
        | error fault =>
          rw [hc] at h
          cases h
        | ok converted =>
          obtain ⟨pieces, cut, rfl⟩ := cut_of_convert le_rfl hc
          rw [hc] at h
          exact ⟨text, pieces, rfl, cut, (Except.ok.inj h).symm⟩
      · rintro ⟨text', pieces, eq, cut, rfl⟩
        cases eq
        rw [cut.convert le_rfl]
        rfl

end LiveTemplate.DoubleBrace
