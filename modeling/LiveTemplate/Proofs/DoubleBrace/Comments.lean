/-
Comments of the older dialect. A comment is taken out with its brackets, and the text on both sides
of it stays. But its end is looked for as that of any tag, where brackets in strings do not count: so
a quotation mark in a comment opens a string, and a comment that leaves one open has no end.
-/
import LiveTemplate.Proofs.DoubleBrace.Segments

namespace LiveTemplate.DoubleBrace

open Text

variable {closing inside cs rest : List Char}

/-! ## Strings in a tag -/

/-- The marks that open a string in a tag of the older dialect. -/
def marks : List Char := ['"', '\'']

/-- The mark of the string that is open behind a text, which begins in the string of `quote`. In a
string a backslash guards the character after it. -/
def openMark : Option Char → List Char → Option Char
  | quote, [] => quote
  | some q, '\\' :: _ :: cs => openMark (some q) cs
  | some q, c :: cs => openMark (if c = q then none else some q) cs
  | none, c :: cs => openMark (if c ∈ marks then some c else none) cs

/-- What is found behind a text without a closing brace is found in the string that the text leaves
open. What follows must not begin with a character that counts in a string, since a backslash at the
end of the text would guard it. -/
theorem closeTag?_over {quote : Option Char} (known : ∀ q ∈ quote, q ∈ marks) (free : '}' ∉ inside)
    (next : ∀ d ∈ rest.head?, d ∉ '\\' :: marks) (closing : List Char) :
    closeTag? ('}' :: closing) quote (inside ++ rest) =
      (closeTag? ('}' :: closing) (openMark quote inside) rest).map
        fun found => (inside ++ found.1, found.2) := by
  fun_induction openMark quote inside with
  | case1 quote => simp
  | case2 q c cs ih =>
    rw [List.cons_append, List.cons_append, closeTag?, ih known fun mem => free (by simp [mem]),
      Option.map_map]
    rfl
  | case3 q c cs lone ih =>
    have known' : ∀ r ∈ (if c = q then none else some q : Option Char), r ∈ marks := by
      intro r hr
      split at hr
      · cases hr
      · exact known r hr
    by_cases guards : c = '\\' ∧ cs = [] ∧ rest ≠ []
    · -- the guarded character would not have closed the string either
      obtain ⟨rfl, rfl, nonempty⟩ := guards
      obtain ⟨d, rest, rfl⟩ := List.exists_cons_of_ne_nil nonempty
      have mark : q ∈ marks := known q rfl
      obtain ⟨guard, plain⟩ : ¬ d = '\\' ∧ d ∉ marks := by simpa using next d rfl
      have other : ¬ '\\' = q := by
        rintro rfl
        exact absurd mark (by decide)
      have stays : ¬ d = q := by
        rintro rfl
        exact plain mark
      rw [List.cons_append, List.nil_append, closeTag?, if_neg other, openMark, closeTag?,
        if_neg stays, Option.map_map]
      · rfl
      · exact fun _ _ eq => absurd eq guard
    · have plain : ∀ d more, c = '\\' → cs ++ rest = d :: more → False := by
        intro d more guard eq
        rcases cs with _ | ⟨e, cs⟩
        · exact guards ⟨guard, rfl, by rintro rfl; cases eq⟩
        · exact lone e cs guard rfl
      rw [List.cons_append, closeTag?, ih known' fun mem => free (by simp [mem]), Option.map_map]
      · rfl
      · exact plain
  | case4 c cs ih =>
    obtain ⟨first, later⟩ : '}' ≠ c ∧ '}' ∉ cs := by simpa using free
    have notEnd : ¬ ('}' :: closing).isPrefixOf (c :: (cs ++ rest)) = true := by
      simp [List.isPrefixOf_iff_prefix, first]
    rw [List.cons_append, closeTag?]
    by_cases mark : c ∈ marks
    · rw [if_pos mark] at ih ⊢
      rw [if_pos (by simpa [marks] using mark), ih (by simpa using mark) later, Option.map_map]
      rfl
    · rw [if_neg mark] at ih ⊢
      rw [if_neg (by simpa [marks] using mark), if_neg notEnd, ih (by simp) later, Option.map_map]
      rfl

/-- A string goes on where its mark does not come again. -/
theorem closeTag?_in_string {q : Char} (free : q ∉ cs) : closeTag? closing (some q) cs = none := by
  generalize hq : some q = quote
  fun_induction closeTag? closing quote cs with
  | case1 => rfl
  | case2 q' c cs ih =>
    rw [ih (fun mem => free (by simp [mem])) hq]
    rfl
  | case3 q' c cs _ ih =>
    cases hq
    have other : ¬ c = q := fun eq => free (by simp [eq])
    rw [ih (fun mem => free (by simp [mem])) (by rw [if_neg other])]
    rfl
  | case4 | case5 | case6 => cases hq

theorem openMark_known {quote : Option Char} (known : ∀ q ∈ quote, q ∈ marks) :
    ∀ q ∈ openMark quote inside, q ∈ marks := by
  fun_induction openMark quote inside with
  | case1 => exact known
  | case2 q c cs ih => exact ih known
  | case3 q c cs _ ih =>
    refine ih fun r hr => ?_
    split at hr
    · cases hr
    · exact known r hr
  | case4 c cs ih =>
    refine ih fun r hr => ?_
    split at hr
    · cases hr
      assumption
    · cases hr

/-- A tag whose text has no closing brace ends at the bracket behind it, unless the text leaves a
string open and no mark follows. -/
theorem closeTag?_of_marks (free : '}' ∉ inside) (closing : List Char)
    (others : ∀ c ∈ closing ++ rest, c ∉ marks) :
    closeTag? ('}' :: closing) none (inside ++ ('}' :: closing) ++ rest) =
      if openMark none inside = none then some (inside, rest) else none := by
  rw [List.append_assoc, closeTag?_over (by simp) free (by simp [marks]) closing]
  cases hm : openMark none inside with
  | none => simp [closeTag?, List.isPrefixOf_iff_prefix]
  | some q =>
    have mark : q ∈ marks := openMark_known (by simp) q hm
    have free : q ∉ '}' :: closing ++ rest := by
      rw [List.cons_append, List.mem_cons, not_or]
      refine ⟨?_, fun mem => others q mem mark⟩
      rintro rfl
      exact absurd mark (by decide)
    rw [closeTag?_in_string free]
    simp

/-! ## Comments among other text -/

/-- A pattern of two braces and something else does not begin in a tag that goes on with another
character. -/
theorem infix_of_tag {y : Char} {q : List Char} (free : '{' ∉ inside) (nonempty : inside ≠ [])
    (other : inside.head? ≠ some y) (found : '{' :: '{' :: y :: q <:+: '{' :: '{' :: (inside ++ rest)) :
    '{' :: '{' :: y :: q <:+: rest := by
  obtain ⟨d, inside, rfl⟩ := List.exists_cons_of_ne_nil nonempty
  rw [List.infix_cons_iff, List.infix_cons_iff] at found
  obtain starts | starts | found := found
  · have first : y = d := by
      simp only [List.cons_append, List.cons_prefix_cons] at starts
      exact starts.2.2.1
    exact absurd (congrArg some first.symm) other
  · have second : '{' = d := by
      simp only [List.cons_append, List.cons_prefix_cons] at starts
      exact starts.2.1
    exact absurd (List.mem_cons.2 (.inl second)) free
  · exact infix_of_append_free free found

/-- Text without braces is copied. -/
theorem convert_text {fuel : Nat} (free : '{' ∉ cs) (pos : Nat) :
    convert (cs.length + fuel) pos (cs ++ rest) =
      (convert fuel (pos + byteLength cs) rest).map (cs ++ ·) := by
  induction cs generalizing pos with
  | nil =>
    simp only [List.length_nil, Nat.zero_add, List.nil_append, byteLength, Nat.add_zero]
    cases convert fuel pos rest <;> rfl
  | cons c cs ih =>
    obtain ⟨first, others⟩ : '{' ≠ c ∧ '{' ∉ cs := by simpa using free
    rw [List.length_cons, Nat.add_right_comm, List.cons_append, convert, ih others, byteLength,
      Nat.add_assoc]
    · cases convert fuel (pos + (c.utf8Size + byteLength cs)) rest <;> rfl
    all_goals
      intros
      simp_all

/-- A source of the older dialect without percent brackets and fragments is converted as it is. -/
theorem normalize_of_free {source : List Char} (dialect : detect source = true)
    (opens : ¬ ['{', '%'] <:+: source) (closes : ¬ ['%', '}'] <:+: source)
    (block : ¬ blockOpen <:+: source) (reference : ¬ referenceOpen <:+: source) :
    normalize (String.ofList source) =
      ((convert source.length 0 source).mapError (Error.ofFault (String.ofList source))).map
        String.ofList := by
  unfold normalize
  simp only [String.toList_ofList, dialect, Bool.not_true, Bool.false_eq_true, if_false,
    unifyOpen_of_free opens, unifyClose_of_free closes,
    collect_of_free (r := ⟨0, source⟩) source.length block, Except.mapError, bind, Except.bind,
    expandAll_of_free (r := ⟨0, source⟩) reference]
  cases convert source.length 0 source <;> rfl

/-- A comment is turned into nothing. -/
theorem convertTag_comment (c : List Char) (span : Span) : convertTag ('!' :: c) span = .ok [] := by
  have plain : isBlank '!' = false := by decide
  have start : trimStart ('!' :: c) = '!' :: c := List.dropWhile_cons_of_neg (by simp [plain])
  have mark : (trim ('!' :: c)).head? = some '!' := by
    obtain ⟨blanks, eq, all⟩ := trimEnd_prefix ('!' :: c)
    rw [trim, start]
    rcases ht : trimEnd ('!' :: c) with _ | ⟨d, more⟩
    · rw [ht, List.nil_append] at eq
      exact absurd (all '!' (by simp [← eq])) (by simp [plain])
    · rw [ht, List.cons_append] at eq
      rw [List.head?_cons, (List.cons.inj eq).1]
  unfold convertTag
  simp [mark]

/-- A comment between two texts and a tag behind them. -/
def commented (before comment after : List Char) : List Char :=
  before ++ "\x7b\x7b!".toList ++ comment ++ "\x7d\x7d".toList ++ after ++ "\x7b\x7bx\x7d\x7d".toList

section Commented

variable {before comment after : List Char}

theorem commented_eq (before comment after : List Char) :
    commented before comment after = before ++ '{' :: '{' :: ('!' :: (comment ++ ['}', '}']) ++
      (after ++ '{' :: '{' :: (['x', '}', '}'] ++ []))) := by
  simp [commented]

theorem detect_commented (before comment after : List Char) :
    detect (commented before comment after) = true := by
  have shape : commented before comment after = before ++ "\x7b\x7b".toList ++
      ('!' :: comment ++ "\x7d\x7d".toList ++ (after ++ "\x7b\x7bx\x7d\x7d".toList)) := by
    simp [commented]
  rw [shape]
  exact detect_of_tag ..

/-- No declaration of a fragment and no reference begins in one of the parts. -/
theorem not_infix_commented {y : Char} (q : List Char) (hy : y ∉ ['!', 'x']) (hb : '{' ∉ before)
    (ha : '{' ∉ after) (hc : '{' ∉ comment) :
    ¬ '{' :: '{' :: y :: q <:+: commented before comment after := by
  simp only [List.mem_cons, List.not_mem_nil, or_false, not_or] at hy
  intro found
  rw [commented_eq] at found
  have found := infix_of_tag (by simpa using hc) (List.cons_ne_nil _ _) (by simpa using Ne.symm hy.1)
    (infix_of_append_free hb found)
  have found := infix_of_tag (by simp) (List.cons_ne_nil _ _) (by simpa using Ne.symm hy.2)
    (infix_of_append_free ha found)
  simp at found

/-- The text behind a comment is copied, and the tag at the end is converted. -/
theorem convert_after (h : '{' ∉ after) (fuel pos : Nat) :
    convert (after.length + (fuel + 2)) pos (after ++ "\x7b\x7bx\x7d\x7d".toList) =
      .ok (after ++ "\x7bx\x7d".toList) := by
  have closed : closeTag? tagClose none ['x', '}', '}'] = some (['x'], []) := by decide
  have tag (span : Span) : convertTag ['x'] span = .ok ['{', 'x', '}'] :=
    convertTag_span (show convertTag ['x'] default = _ by decide +kernel) span
  have last : convert (fuel + 2) (pos + byteLength after) ['{', '{', 'x', '}', '}'] =
      .ok ['{', 'x', '}'] := by
    rw [convert]
    · simp only [closed, tag]
      rfl
    · simp
  rw [convert_text h, show "\x7b\x7bx\x7d\x7d".toList = ['{', '{', 'x', '}', '}'] from rfl, last]
  rfl

/-- A comment is left out, if its end is found. -/
theorem convert_comment (hc : '}' ∉ comment) (ha : ∀ c ∈ after, c ∉ reserved) (fuel pos : Nat) :
    convert (after.length + (fuel + 2) + 1) pos
        ('{' :: '{' :: ('!' :: comment ++ ['}', '}'] ++ (after ++ "\x7b\x7bx\x7d\x7d".toList))) =
      if openMark none comment = none then .ok (after ++ "\x7bx\x7d".toList)
      else .error ⟨.unclosedDoubleBrace, pos, pos + 2⟩ := by
  have noMarks : ∀ c ∈ ['}'] ++ (after ++ "\x7b\x7bx\x7d\x7d".toList), c ∉ marks := by
    have others : ∀ c ∈ after, c ∉ marks := by
      intro c mem mark
      refine ha c mem ?_
      simp only [marks, List.mem_cons, List.not_mem_nil, or_false] at mark
      obtain rfl | rfl := mark <;> decide
    rw [List.forall_mem_append, List.forall_mem_append]
    exact ⟨by simp [marks], others, by simp [marks]⟩
  have opened : openMark none ('!' :: comment) = openMark none comment := by
    rw [openMark, if_neg (by decide)]
  have free : '}' ∉ '!' :: comment := by simpa using hc
  have closing := closeTag?_of_marks free ['}'] noMarks
  rw [opened] at closing
  rw [List.cons_append, List.cons_append, convert]
  · rw [show tagClose = '}' :: ['}'] from rfl, ← List.cons_append, ← List.cons_append, closing]
    by_cases closed : openMark none comment = none
    · simp only [if_pos closed, convertTag_comment]
      have plain : '{' ∉ after := fun mem => ha _ mem (by decide)
      have kept := convert_after plain fuel
      show (convert _ _ _ >>= _) = _
      rw [kept]
      rfl
    · simp only [if_neg closed]
  · simp

/-- A comment that closes its strings removes exactly itself. One that leaves a string open has no end,
and the source is refused at its brackets. -/
theorem normalize_comment (hb : ∀ c ∈ before, c ∉ reserved) (ha : ∀ c ∈ after, c ∉ reserved)
    (hc : ∀ c ∈ comment, c ∉ ['{', '}', '%']) :
    normalize (String.ofList (commented before comment after)) =
      if openMark none comment = none then
        .ok (String.ofList (before ++ after ++ "\x7bx\x7d".toList))
      else .error (.located .unclosedDoubleBrace (String.ofList (commented before comment after))
        ⟨byteLength before, byteLength before + 2⟩) := by
  have free {cs : List Char} {kept : List Char} (h : ∀ c ∈ cs, c ∉ kept) {x : Char} (hx : x ∈ kept) :
      x ∉ cs := fun mem => h x mem hx
  have percent : '%' ∉ commented before comment after := by
    simp [commented, free hb (x := '%') (by decide), free ha (x := '%') (by decide),
      free hc (x := '%') (by decide)]
  have noBlock : ¬ blockOpen <:+: commented before comment after :=
    not_infix_commented _ (by decide) (free hb (by decide)) (free ha (by decide)) (free hc (by decide))
  have noReference : ¬ referenceOpen <:+: commented before comment after :=
    not_infix_commented _ (by decide) (free hb (by decide)) (free ha (by decide)) (free hc (by decide))
  rw [normalize_of_free (detect_commented ..) (fun found => percent (found.subset (by simp)))
    (fun found => percent (found.subset (by simp))) noBlock noReference]
  -- the conversion copies the text before the comment, and looks for the end of the comment
  have length : (commented before comment after).length =
      before.length + (after.length + (comment.length + 7 + 2) + 1) := by
    simp [commented]
    omega
  have shape : commented before comment after = before ++
      '{' :: '{' :: ('!' :: comment ++ ['}', '}'] ++ (after ++ "\x7b\x7bx\x7d\x7d".toList)) := by
    simp [commented]
  have converted : convert (commented before comment after).length 0 (commented before comment after) =
      if openMark none comment = none then .ok (before ++ (after ++ "\x7bx\x7d".toList))
      else .error ⟨.unclosedDoubleBrace, byteLength before, byteLength before + 2⟩ := by
    rw [length, shape, convert_text (free hb (by decide)),
      convert_comment (free hc (by decide)) ha, Nat.zero_add]
    split <;> rfl
  rw [converted]
  split
  · rw [List.append_assoc]
    rfl
  · rfl

end Commented

/-- A comment with strings, one of which has a guarded mark in it, and what looks like a reference. -/
theorem normalize_comment_strings :
    let before := "<p># ".toList
    let comment := "> see \"a \\\" b\", 'c' ".toList
    let after := "! \\</p>".toList
    (∀ c ∈ before, c ∉ reserved) ∧ (∀ c ∈ after, c ∉ reserved) ∧
      (∀ c ∈ comment, c ∉ ['{', '}', '%']) ∧
      normalize (String.ofList (commented before comment after)) =
        .ok "<p># ! \\</p>\x7bx\x7d" := by
  intro before comment after
  have hb : ∀ c ∈ before, c ∉ reserved := by simp [before, reserved]
  have ha : ∀ c ∈ after, c ∉ reserved := by simp [after, reserved]
  have hc : ∀ c ∈ comment, c ∉ ['{', '}', '%'] := by simp [comment]
  have closed : openMark none comment = none := by decide
  refine ⟨hb, ha, hc, ?_⟩
  rw [normalize_comment hb ha hc, if_pos closed]
  rfl

/-- An apostrophe in a comment opens a string, in which the comment never ends. -/
theorem normalize_comment_apostrophe :
    (∀ c ∈ " don't ".toList, c ∉ ['{', '}', '%']) ∧
      normalize "\x7b\x7b! don't \x7d\x7d\x7b\x7bx\x7d\x7d" =
        .error (.located .unclosedDoubleBrace "\x7b\x7b! don't \x7d\x7d\x7b\x7bx\x7d\x7d" ⟨0, 2⟩) ∧
      normalize "\x7b\x7b! don't \x7d\x7d\x7b\x7bx\x7d\x7d" ≠ .ok "\x7bx\x7d" := by
  have refused : normalize "\x7b\x7b! don't \x7d\x7d\x7b\x7bx\x7d\x7d" =
      .error (.located .unclosedDoubleBrace "\x7b\x7b! don't \x7d\x7d\x7b\x7bx\x7d\x7d" ⟨0, 2⟩) := by
    decide +kernel
  refine ⟨by simp, refused, ?_⟩
  rw [refused]
  exact nofun

end LiveTemplate.DoubleBrace
