/-
Texts whose strings and braces are closed, by a grammar of their own. They are exactly the texts
that stand between two braces: looking for the brace that matches the first goes over such a text,
and whatever it goes over is one.
-/
import LiveTemplate.Proofs.Location.Regions

namespace LiveTemplate.Delimiter

open Text

/-! ## The grammar -/

/-- Texts that are closed under strings and braces. Those with a mark stand in a string that the mark
quotes, where a backslash guards the character after it, and a template string has holes with a text
of the other kind. -/
inductive Enclosed : Option Char → List Char → Prop
  | nil (mark? : Option Char) : Enclosed mark? []
  | plain {c : Char} {rest : List Char} : c ≠ '{' → c ≠ '}' → isQuote c = false →
    Enclosed none rest → Enclosed none (c :: rest)
  | braces {inside rest : List Char} : Enclosed none inside → Enclosed none rest →
    Enclosed none ('{' :: (inside ++ '}' :: rest))
  | string {mark : Char} {text rest : List Char} : isQuote mark = true → Enclosed (some mark) text →
    Enclosed none rest → Enclosed none (mark :: (text ++ mark :: rest))
  | char {mark c : Char} {rest : List Char} : c ≠ mark → c ≠ '\\' →
    (mark = '\x60' → c = '$' → rest.head? ≠ some '{') →
    Enclosed (some mark) rest → Enclosed (some mark) (c :: rest)
  | guarded {mark : Char} (c : Char) {rest : List Char} :
    Enclosed (some mark) rest → Enclosed (some mark) ('\\' :: c :: rest)
  | hole {inside rest : List Char} : Enclosed none inside → Enclosed (some '\x60') rest →
    Enclosed (some '\x60') ('$' :: '{' :: (inside ++ '}' :: rest))

theorem isQuote_ne {mark : Char} (h : isQuote mark = true) {c : Char} (hc : isQuote c = false) :
    c ≠ mark := by
  rintro rfl
  rw [hc] at h
  cases h

/-! ## Going over them -/

/-- What it is for a text to be gone over while the end of what it stands in is looked for. -/
def GoneOver : Option Char → List Char → Prop
  | none, text => Balanced text
  | some mark, text => isQuote mark = true → Quotable mark text

/-- A text of the grammar is gone over. -/
theorem Enclosed.goneOver {mark? : Option Char} {text : List Char} (h : Enclosed mark? text) :
    GoneOver mark? text := by
  induction h with
  | nil mark? =>
    cases mark? with
    | none => exact Balanced.nil
    | some mark =>
      intro quote
      refine quotable_of_close ⟨(isQuote_ne quote rfl).symm, (isQuote_ne quote rfl).symm⟩ ?_
      exact fun opened frames pos rest => Passes.nil _ frames pos (mark :: rest)
  | plain brace closing quote _ ih =>
    refine Balanced.append (a := [_]) (Balanced.plain fun d hd => ?_) ih
    rw [List.mem_singleton.1 hd]
    exact ⟨brace, closing, quote⟩
  | @braces inside rest _ _ ih ih' =>
    have whole : '{' :: (inside ++ '}' :: rest) = ('{' :: (inside ++ ['}'])) ++ rest := by simp
    rw [whole]
    exact Balanced.append ih.braces ih'
  | @string mark text rest quote _ _ ih ih' =>
    have whole : mark :: (text ++ mark :: rest) = (mark :: (text ++ [mark])) ++ rest := by simp
    rw [whole]
    exact Balanced.append (.quoted quote (ih quote)) ih'
  | @char mark c rest other guard dollar _ ih =>
    intro quote opened frames pos more
    -- behind the last character of the text stands the mark, which is no brace
    have free : mark = '\x60' → c = '$' → (rest ++ mark :: more).head? ≠ some '{' := by
      intro template isDollar
      rcases rest with _ | ⟨d, rest⟩
      · simp [template]
      · exact dollar template isDollar
    rw [List.cons_append, close_char guard other (isQuote_ne quote rfl) free, ih quote,
      map_prepend_prepend, byteLength]
    simp only [Nat.add_assoc, List.cons_append, List.nil_append]
  | @guarded mark c rest _ ih =>
    intro quote opened frames pos more
    rw [List.cons_append, List.cons_append, close_guarded, ih quote, map_prepend_prepend]
    simp only [byteLength, Nat.add_assoc, List.cons_append, List.nil_append,
      show '\\'.utf8Size = 1 from rfl]
  | @hole inside rest _ _ ih ih' =>
    intro quote opened frames pos more
    have whole : '$' :: '{' :: (inside ++ '}' :: rest) ++ '\x60' :: more =
        '$' :: '{' :: (inside ++ '}' :: (rest ++ '\x60' :: more)) := by simp
    have split : '$' :: '{' :: (inside ++ '}' :: rest) = '$' :: '{' :: (inside ++ ['}']) ++ rest := by
      simp
    rw [whole, close_hole ih, ih' quote, map_prepend_prepend, split, byteLength_append]
    simp only [Nat.add_assoc, List.append_assoc]

/-! ## What is gone over -/

theorem Enclosed.append {a b : List Char} (ha : Enclosed none a) (hb : Enclosed none b) :
    Enclosed none (a ++ b) := by
  generalize hm : none = mark? at ha
  induction ha with
  | nil => exact hm ▸ hb
  | plain brace closing quote _ ih => exact .plain brace closing quote (ih hm)
  | @braces inside rest inner _ _ ih =>
    rw [List.cons_append, List.append_assoc]
    exact .braces inner (ih hm)
  | @string mark text rest quote inner _ _ ih =>
    rw [List.cons_append, List.append_assoc]
    exact .string quote inner (ih hm)
  | char => cases hm
  | guarded => cases hm
  | hole => cases hm

/-- What closes a row of frames, the innermost first: for each a text of the grammar and the character
that closes it, and for braces in braces as many of both. -/
inductive Closing : List Frame → List Char → Prop
  | done : Closing [] []
  | last {opened : Nat} {frames : List Frame} {text rest : List Char} : Enclosed none text →
    Closing frames rest → Closing (.brace opened 0 :: frames) (text ++ '}' :: rest)
  | brace {opened depth : Nat} {frames : List Frame} {text rest : List Char} : Enclosed none text →
    Closing (.brace opened depth :: frames) rest →
      Closing (.brace opened (depth + 1) :: frames) (text ++ '}' :: rest)
  | quote {opened : Nat} {mark : Char} {frames : List Frame} {text rest : List Char} :
    Enclosed (some mark) text → Closing frames rest →
      Closing (.quote opened mark :: frames) (text ++ mark :: rest)

/-- The frames of expressions. -/
def Frame.InExpression : Frame → Prop
  | brace _ _ => True
  | quote _ mark => isQuote mark = true
  | value _ _ | tag _ => False

theorem inExpression_step {frame : Frame} {frames : List Frame}
    (hf : ∀ f ∈ frame :: frames, f.InExpression) (pos : Nat) (c : Char) :
    ∀ f ∈ step pos c frame frames, f.InExpression := by
  obtain ⟨first, others⟩ := List.forall_mem_cons.1 hf
  cases frame with
  | brace opened depth =>
    rw [step]
    split_ifs with brace closing outermost quote
    all_goals simp only [List.forall_mem_cons, Frame.InExpression, true_and]
    · exact others
    · exact others
    · exact others
    · exact ⟨quote, others⟩
    · exact others
  | quote opened mark =>
    rw [step]
    split
    · exact others
    · exact hf
  | value => exact first.elim
  | tag => exact first.elim

namespace Closing

variable {opened depth pos : Nat} {frames : List Frame} {c : Char} {cs : List Char}

/-- In braces a text of the grammar may stand in front. -/
theorem prepend {text : List Char} (ht : Enclosed none text)
    (h : Closing (.brace opened depth :: frames) cs) :
    Closing (.brace opened depth :: frames) (text ++ cs) := by
  cases h with
  | last inside outer =>
    rw [← List.append_assoc]
    exact .last (ht.append inside) outer
  | brace inside outer =>
    rw [← List.append_assoc]
    exact .brace (ht.append inside) outer

theorem step_brace (h : Closing (step pos c (.brace opened depth) frames) cs) :
    Closing (.brace opened depth :: frames) (c :: cs) := by
  rw [step] at h
  split at h
  case isTrue brace =>
    obtain rfl := beq_iff_eq.1 brace
    cases h with
    | @brace _ _ _ text rest inside outer =>
      simpa using outer.prepend (.braces inside (.nil none))
  split at h
  case isTrue closing =>
    obtain rfl := beq_iff_eq.1 closing
    cases depth with
    | zero => exact .last (.nil none) h
    | succ depth => exact .brace (.nil none) h
  split at h
  case isTrue quote =>
    cases h with
    | @quote _ _ _ text rest inside outer =>
      simpa using outer.prepend (.string quote inside (.nil none))
  case isFalse brace closing quote =>
    exact h.prepend (.plain (by simpa using brace) (by simpa using closing) (by simpa using quote)
      (.nil none))

theorem step_quote {mark : Char} (guard : c ≠ '\\') (dollar : c = '$' → cs.head? ≠ some '{')
    (h : Closing (step pos c (.quote opened mark) frames) cs) :
    Closing (.quote opened mark :: frames) (c :: cs) := by
  rw [step] at h
  split at h
  case isTrue closing =>
    obtain rfl := beq_iff_eq.1 closing
    exact .quote (.nil _) h
  case isFalse other =>
    cases h with
    | @quote _ _ _ text rest inside outer =>
      refine .quote (.char (by simpa using other) guard (fun _ isDollar brace => ?_) inside) outer
      obtain ⟨more, rfl⟩ := List.head?_eq_some_iff.1 brace
      exact dollar isDollar rfl

end Closing

/-- What is gone over up to the end of the frames of an expression is closed by the grammar. -/
theorem closing_of_close {frames : List Frame} {pos : Nat} {cs inside after : List Char}
    (h : close frames pos cs = .ok (inside, after)) (hf : ∀ f ∈ frames, f.InExpression) :
    Closing frames inside := by
  -- by the recursion of the scan: each character that is read goes in front of what closes the frames
  -- that are open behind it
  fun_induction close frames pos cs generalizing inside with
  | case1 =>
    cases h
    exact .done
  | case2 => cases h
  | case3 => cases h
  | case4 opened mark frames pos c rest ih =>
    obtain ⟨⟨passed, rest⟩, hp, eq⟩ := results_of_map h
    cases eq
    cases ih hp hf with
    | quote inside outer => exact .quote (.guarded c inside) outer
  | case5 opened mark frames pos rest outer inner =>
    rename_i ih
    obtain ⟨⟨passed, rest⟩, hp, eq⟩ := results_of_map h
    cases eq
    by_cases template : mark = '\x60'
    · subst template
      have opens : inner = .brace (pos + 1) 0 :: .quote opened '\x60' :: frames := rfl
      have closing := ih hp (by simpa [opens, Frame.InExpression] using hf)
      rw [opens] at closing
      cases closing with
      | last inside outer =>
        cases outer with
        | @quote _ _ _ text rest string outer =>
          simpa using Closing.quote (.hole inside string) outer
    -- outside of template strings the dollar and the brace are two characters like others
    · have stays : inner = .quote opened mark :: frames := by
        simp [inner, outer, template]
      rw [stays] at hp ih
      have quote : isQuote mark = true := hf _ List.mem_cons_self
      cases ih hp hf with
      | @quote _ _ _ text rest string outer =>
        have brace : Enclosed (some mark) ('{' :: text) :=
          .char (isQuote_ne quote rfl) (by decide) (fun h => absurd h template) string
        exact .quote (.char (isQuote_ne quote rfl) (by decide) (fun h => absurd h template) brace) outer
  | case6 frame frames pos c rest guard dollar ih =>
    obtain ⟨⟨passed, rest⟩, hp, eq⟩ := results_of_map h
    cases eq
    have closing := ih hp (inExpression_step hf pos c)
    cases frame with
    | brace opened depth => exact closing.step_brace
    | quote opened mark =>
      -- what is gone over begins like the text, so a dollar goes with no brace in it either
      have whole := eq_of_close hp
      refine closing.step_quote (guard opened mark rfl) fun isDollar brace => ?_
      obtain ⟨more, rfl⟩ := List.head?_eq_some_iff.1 brace
      exact dollar opened mark _ rfl isDollar whole
    | value => exact (hf _ List.mem_cons_self).elim
    | tag => exact (hf _ List.mem_cons_self).elim

/-- The texts of the grammar are those that stand between a brace and the one that matches it. -/
theorem closeBrace_eq_iff (opened : Nat) (text rest : List Char) :
    closeBrace opened (text ++ '}' :: rest) = .ok (text ++ ['}'], rest) ↔ Enclosed none text := by
  refine ⟨fun h => ?_, fun h => h.goneOver.closeBrace opened rest⟩
  have closing := closing_of_close h (List.forall_mem_singleton.2 trivial)
  generalize hw : text ++ ['}'] = whole at closing
  cases closing with
  | last inside outer =>
    cases outer
    rwa [List.append_cancel_right hw]

instance (text : List Char) : Decidable (Enclosed none text) :=
  decidable_of_iff (closeBrace 0 (text ++ ['}']) = .ok (text ++ ['}'], []))
    (closeBrace_eq_iff 0 text [])

example : Enclosed none "f(\x7ba: '\x7d'\x7d, `$\x7b`\x7d`\x7d`)".toList := by decide +kernel
example : ¬ Enclosed none "f(\x7ba: '\x7d'\x7d, `$\x7b`\x7d``)".toList := by decide +kernel

end LiveTemplate.Delimiter
