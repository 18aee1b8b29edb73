/-
Texts whose strings are closed, their braces aside. What stands between two braces is one, and it is
still one if characters that are no quotes are cut off its ends. Inside of a string, the text of the
grammar is left piece by piece: a guarded character, a hole of a template string, a plain one.
-/
import LiveTemplate.Proofs.Delimiter.Enclosed

namespace LiveTemplate.Delimiter

open Text

/-- Texts outside of strings in which every string is closed. -/
inductive Strung : List Char → Prop
  | nil : Strung []
  | plain {c : Char} {rest : List Char} : isQuote c = false → Strung rest → Strung (c :: rest)
  | string {mark : Char} {text rest : List Char} : isQuote mark = true → Enclosed (some mark) text →
    Strung rest → Strung (mark :: (text ++ mark :: rest))

/-- Characters that pass a test which no quote passes are no quotes. -/
theorem isQuote_of_test {p : Char → Bool} (double : p '"' = false) (single : p '\'' = false)
    (template : p '\x60' = false) {c : Char} (h : p c = true) : isQuote c = false := by
  simp [isQuote, ne_of_test h double, ne_of_test h single, ne_of_test h template]

theorem isQuote_of_blank {c : Char} (h : isBlank c = true) : isQuote c = false :=
  isQuote_of_test rfl rfl rfl h

namespace Strung

variable {front back : List Char} {c : Char}

theorem append (ha : Strung front) (hb : Strung back) : Strung (front ++ back) := by
  induction ha with
  | nil => exact hb
  | plain other _ ih => exact .plain other ih
  | string quote inside _ ih =>
    rw [List.cons_append, List.append_assoc]
    exact .string quote inside ih

/-! ## The next character -/

theorem tail (h : Strung (c :: back)) (other : isQuote c = false) : Strung back := by
  cases h with
  | plain _ rest => exact rest
  | string quote =>
    rw [other] at quote
    cases quote

/-- At a quote stands a string, which the scan for its end goes over. -/
theorem closeQuote (h : Strung (c :: back)) (quote : isQuote c = true) :
    ∃ text rest, back = text ++ c :: rest ∧ Enclosed (some c) text ∧ Strung rest ∧
      ∀ opened, Delimiter.closeQuote opened c back = .ok (text ++ [c], rest) := by
  cases h with
  | plain other =>
    rw [other] at quote
    cases quote
  | string _ inside rest =>
    exact ⟨_, _, rfl, inside, rest, fun opened => (inside.goneOver quote).closeQuote opened _⟩

/-! ## Cuts -/

/-- What is cut off the front and has no quotes leaves the strings closed. -/
theorem behind (h : Strung (front ++ back)) (plain : ∀ c ∈ front, isQuote c = false) :
    Strung back := by
  induction front with
  | nil => exact h
  | cons c front ih =>
    obtain ⟨other, plain⟩ := List.forall_mem_cons.1 plain
    exact ih (h.tail other) plain

/-- What is cut off the end and has no quotes leaves the strings closed. -/
theorem before (h : Strung (front ++ back)) (plain : ∀ c ∈ back, isQuote c = false) :
    Strung front := by
  generalize hw : front ++ back = whole at h
  induction h generalizing front with
  | nil =>
    rw [(List.append_eq_nil_iff.1 hw).1]
    exact .nil
  | plain other _ ih =>
    cases front with
    | nil => exact .nil
    | cons d front =>
      cases hw
      exact .plain other (ih rfl)
  | @string mark text rest quote inside _ ih =>
    cases front with
    | nil => exact .nil
    | cons d front =>
      rw [List.cons_append] at hw
      obtain ⟨rfl, hw⟩ := List.cons.inj hw
      -- the cut falls behind the closing quote, for the part that is cut off has none
      have late (more : List Char) (hb : back = more ++ d :: rest) : False := by
        have other := plain d (by simp [hb])
        rw [other] at quote
        cases quote
      rcases List.append_eq_append_iff.1 hw with ⟨more, -, hb⟩ | ⟨more, rfl, hb⟩
      · exact (late more hb).elim
      · cases more with
        | nil => exact (late [] hb.symm).elim
        | cons e more =>
          obtain ⟨rfl, rfl⟩ := List.cons.inj hb
          exact .string quote inside (ih rfl)

end Strung

/-- What stands between two braces is a text whose strings are closed. -/
theorem Enclosed.strung {text : List Char} (h : Enclosed none text) : Strung text := by
  generalize hm : none = mark? at h
  induction h with
  | nil => exact .nil
  | plain _ _ other _ ih => exact .plain other (ih hm)
  | braces _ _ ih ih' => exact .plain rfl ((ih hm).append (.plain rfl (ih' hm)))
  | string quote inside _ _ ih => exact .string quote inside (ih hm)
  | char => cases hm
  | guarded => cases hm
  | hole => cases hm

/-! ## Inside of strings -/

namespace Enclosed

variable {mark c : Char} {rest : List Char}

theorem guarded_tail (h : Enclosed (some mark) ('\\' :: rest)) :
    ∃ c after, rest = c :: after ∧ Enclosed (some mark) after := by
  cases h with
  | char _ guard => exact absurd rfl guard
  | guarded c after => exact ⟨c, _, rfl, after⟩

theorem tail (h : Enclosed (some mark) (c :: rest)) (guard : c ≠ '\\')
    (dollar : c = '$' → rest.head? ≠ some '{') : Enclosed (some mark) rest := by
  cases h with
  | char _ _ _ after => exact after
  | guarded => exact absurd rfl guard
  | hole => exact absurd rfl (dollar rfl)

/-- Plain characters in front. -/
theorem behind {front : List Char} (h : Enclosed (some mark) (front ++ rest))
    (plain : ∀ c ∈ front, c ≠ '\\' ∧ c ≠ '$') : Enclosed (some mark) rest := by
  induction front with
  | nil => exact h
  | cons c front ih =>
    obtain ⟨⟨guard, dollar⟩, plain⟩ := List.forall_mem_cons.1 plain
    exact ih (h.tail guard fun isDollar => absurd isDollar dollar) plain

/-- Behind a dollar and a brace in a template string stands what the brace encloses. -/
theorem opens (h : Enclosed (some '\x60') ('$' :: '{' :: rest)) :
    ∃ inside after, rest = inside ++ '}' :: after ∧ Enclosed none inside ∧
      Enclosed (some '\x60') after := by
  cases h with
  | char _ _ dollar => exact absurd rfl (dollar rfl rfl)
  | hole inside after => exact ⟨_, _, rfl, inside, after⟩

end Enclosed

/-! ## Regions -/

variable {r : Region}

theorem Strung.drop {n : Nat} (h : Strung r.text) (plain : ∀ c ∈ r.text.take n, isQuote c = false) :
    Strung (r.drop n).text := by
  rw [← List.take_append_drop n r.text] at h
  exact h.behind plain

theorem Strung.dropBlanks (h : Strung r.text) : Strung (r.dropWhile isBlank).text := by
  rw [← List.takeWhile_append_dropWhile (p := isBlank) (l := r.text)] at h
  rw [Region.dropWhile_text]
  exact h.behind fun c hc => isQuote_of_blank (List.mem_takeWhile_imp hc)

theorem Strung.trim (h : Strung r.text) : Strung r.trim.text := by
  have skipped := h.dropBlanks
  obtain ⟨blanks, whole, blank⟩ := trimEnd_prefix (r.dropWhile isBlank).text
  rw [whole] at skipped
  exact skipped.before fun c hc => isQuote_of_blank (blank c hc)

end LiveTemplate.Delimiter
