/-
Blanks around a text. Trimming takes blanks off both ends and nothing else, and leaves a text
whose ends are no blanks as it is.
-/
import LiveTemplate.Text.Blank
import Mathlib.Data.List.TakeWhile
import Mathlib.Tactic

namespace LiveTemplate.Text

variable {cs : List Char}

theorem trimStart_suffix (cs : List Char) : ∃ l, cs = l ++ trimStart cs ∧ ∀ c ∈ l, isBlank c = true :=
  ⟨cs.takeWhile isBlank, List.takeWhile_append_dropWhile.symm, fun _ => List.mem_takeWhile_imp⟩

theorem trimEnd_prefix (cs : List Char) : ∃ r, cs = trimEnd cs ++ r ∧ ∀ c ∈ r, isBlank c = true := by
  obtain ⟨r, eq, blank⟩ := trimStart_suffix cs.reverse
  refine ⟨r.reverse, ?_, fun c hc => blank c (List.mem_reverse.1 hc)⟩
  rw [trimEnd, ← List.reverse_append]
  exact List.reverse_eq_iff.1 eq

/-- Trimming takes off blanks alone. -/
theorem trim_split (cs : List Char) :
    ∃ l r, cs = l ++ trim cs ++ r ∧ (∀ c ∈ l, isBlank c = true) ∧ ∀ c ∈ r, isBlank c = true := by
  obtain ⟨l, start, hl⟩ := trimStart_suffix cs
  obtain ⟨r, stop, hr⟩ := trimEnd_prefix (trimStart cs)
  refine ⟨l, r, ?_, hl, hr⟩
  rw [trim, List.append_assoc, ← stop]
  exact start

/-- What no blank begins and no blank ends. -/
structure Trimmed (cs : List Char) : Prop where
  head : ∀ c ∈ cs.head?, isBlank c = false
  last : ∀ c ∈ cs.getLast?, isBlank c = false

theorem head?_trimStart (cs : List Char) : ∀ c ∈ (trimStart cs).head?, isBlank c = false := by
  intro c hc
  have := List.head?_dropWhile_not isBlank cs
  rw [trimStart, Option.mem_def] at hc
  simpa [hc] using this

theorem getLast?_trimEnd (cs : List Char) : ∀ c ∈ (trimEnd cs).getLast?, isBlank c = false := by
  intro c hc
  rw [trimEnd, List.getLast?_reverse] at hc
  exact head?_trimStart cs.reverse c hc

theorem trimmed_trim (cs : List Char) : Trimmed (trim cs) := by
  refine ⟨fun c hc => ?_, getLast?_trimEnd _⟩
  obtain ⟨r, eq, -⟩ := trimEnd_prefix (trimStart cs)
  refine head?_trimStart cs c ?_
  rw [eq, List.head?_append]
  rw [trim, Option.mem_def] at hc
  simp [hc]

theorem Trimmed.trim_eq (h : Trimmed cs) : trim cs = cs := by
  have start : trimStart cs = cs := by
    cases cs with
    | nil => rfl
    | cons c cs => exact List.dropWhile_cons_of_neg (by simp [h.head c rfl])
  have stop : cs.reverse.dropWhile isBlank = cs.reverse := by
    cases hr : cs.reverse with
    | nil => rfl
    | cons c cs' =>
      have last : c ∈ cs.getLast? := by simp [← List.head?_reverse, hr]
      exact List.dropWhile_cons_of_neg (by simp [h.last c last])
  rw [trim, start, trimEnd, stop, List.reverse_reverse]

theorem trimmed_iff : Trimmed cs ↔ trim cs = cs := by
  constructor
  · exact Trimmed.trim_eq
  · intro h
    rw [← h]
    exact trimmed_trim cs

theorem trimmed_of_word (h : ∀ c ∈ cs, isBlank c = false) : Trimmed cs :=
  ⟨fun c hc => h c (List.mem_of_head? hc), fun c hc => h c (List.mem_of_getLast? hc)⟩

theorem Trimmed.enclose {a b : List Char} (ha : Trimmed a) (na : a ≠ []) (m : List Char)
    (hb : Trimmed b) (nb : b ≠ []) : Trimmed (a ++ (m ++ b)) := by
  constructor
  · intro c hc
    rw [List.head?_append_of_ne_nil a na] at hc
    exact ha.head c hc
  · intro c hc
    rw [List.getLast?_append_of_ne_nil a (List.append_ne_nil_of_right_ne_nil m nb),
      List.getLast?_append_of_ne_nil m nb] at hc
    exact hb.last c hc

/-- Blanks around a trimmed text are taken off. -/
theorem Trimmed.trimStart_append (h : Trimmed cs) (hn : cs ≠ []) {l : List Char}
    (hl : ∀ c ∈ l, isBlank c = true) (r : List Char) : trimStart (l ++ (cs ++ r)) = cs ++ r := by
  obtain ⟨c, more, rfl⟩ := List.exists_cons_of_ne_nil hn
  rw [trimStart, List.dropWhile_append_of_pos hl]
  exact List.dropWhile_cons_of_neg (by simp [h.head c rfl])

theorem Trimmed.trimEnd_append (h : Trimmed cs) (hn : cs ≠ []) {r : List Char}
    (hr : ∀ c ∈ r, isBlank c = true) : trimEnd (cs ++ r) = cs := by
  have reversed : Trimmed cs.reverse := by
    refine ⟨fun c hc => h.last c ?_, fun c hc => h.head c ?_⟩
    · rwa [List.head?_reverse] at hc
    · rwa [List.getLast?_reverse] at hc
  have start := reversed.trimStart_append (by simpa using hn) (l := r.reverse)
    (fun c hc => hr c (List.mem_reverse.1 hc)) []
  rw [List.append_nil] at start
  rw [trimEnd, List.reverse_append]
  exact List.reverse_eq_iff.2 start

end LiveTemplate.Text
