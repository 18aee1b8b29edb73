/-
The texts of numbers: digits, and a point between digits. A natural number is the value of its
digits, and places split off its digits are still there.
-/
import LiveTemplate.Value.Basic
import Mathlib.Tactic

namespace LiveTemplate

open Text

/-- Characters that a test tells apart are different. -/
theorem ne_of_test {p : Char → Bool} {c d : Char} (hc : p c = true) (hd : p d = false) : c ≠ d := by
  rintro rfl
  rw [hc] at hd
  cases hd

theorem isAsciiDigit_of_isDigit {c : Char} (h : c.isDigit = true) : isAsciiDigit c = true := by
  simp only [Char.isDigit, ge_iff_le, Bool.and_eq_true, decide_eq_true_eq] at h
  simp only [isAsciiDigit, Bool.and_eq_true, decide_eq_true_eq]
  exact h

namespace Decimal

theorem toDigits_digit {n : Nat} {c : Char} (h : c ∈ Nat.toDigits 10 n) : isAsciiDigit c = true :=
  isAsciiDigit_of_isDigit (Nat.isDigit_of_mem_toDigits (by decide) (by decide) h)

theorem valueOf_toDigits (n : Nat) : valueOf (Nat.toDigits 10 n) = n := by
  have same : valueOf (Nat.toDigits 10 n) = Nat.ofDigitChars 10 (Nat.toDigits 10 n) 0 := by
    simp only [valueOf, Nat.ofDigitChars, Nat.mul_comm]
    rfl
  rw [same, Nat.ofDigitChars_ten_toDigits]

theorem intText_of_nonneg {i : Int} (h : 0 ≤ i) : intText i = natText i.toNat := by
  rw [intText, if_neg (by omega), show i.natAbs = i.toNat by omega]

/-- Places are split off the end of digits, after zeros in front of them if need be. -/
theorem splitPlaces_spec (digits : List Char) (places : Nat)
    (h : ∀ c ∈ digits, isAsciiDigit c = true) :
    ∃ c whole fraction, splitPlaces digits places = (c :: whole, fraction) ∧
      c :: (whole ++ fraction) = List.replicate (places + 1 - digits.length) '0' ++ digits ∧
      fraction.length = places ∧ ∀ d ∈ c :: (whole ++ fraction), isAsciiDigit d = true := by
  let padded := List.replicate (places + 1 - digits.length) '0' ++ digits
  have all : ∀ d ∈ padded, isAsciiDigit d = true := by
    intro d hd
    rcases List.mem_append.1 hd with hd | hd
    · rw [List.eq_of_mem_replicate hd]
      rfl
    · exact h d hd
  have long : places + 1 ≤ padded.length := by
    simp only [padded, List.length_append, List.length_replicate]
    omega
  have split : splitPlaces digits places =
      (padded.take (padded.length - places), padded.drop (padded.length - places)) :=
    List.splitAt_eq ..
  have joined := List.take_append_drop (padded.length - places) padded
  have rest : (padded.drop (padded.length - places)).length = places := by
    rw [List.length_drop]
    omega
  rw [split]
  rcases hw : padded.take (padded.length - places) with _ | ⟨c, whole⟩
  · have := congrArg List.length hw
    simp only [List.length_take, List.length_nil] at this
    omega
  · rw [hw, List.cons_append] at joined
    exact ⟨c, whole, _, rfl, joined, rest, by rwa [joined]⟩

/-- Zeros in front of digits do not count. -/
theorem valueOf_zeros (n : Nat) (digits : List Char) :
    valueOf (List.replicate n '0' ++ digits) = valueOf digits := by
  induction n with
  | zero => rfl
  | succ n ih => rw [List.replicate_succ, List.cons_append, ← ih]; rfl

/-- A decimal with places is laid out as its digits with a point before the places. -/
theorem plain_places {d : Digits} (h : d.exponent < 0) (wholePoint : Bool) :
    ∃ c whole fraction, (d.plain wholePoint).toList = c :: (whole ++ '.' :: fraction) ∧
      valueOf (c :: (whole ++ fraction)) = d.digits ∧ (fraction.length : Int) = -d.exponent ∧
      ∀ e ∈ c :: (whole ++ fraction), isAsciiDigit e = true := by
  obtain ⟨c, whole, fraction, split, joined, length, all⟩ := splitPlaces_spec
    (Nat.toDigits 10 d.digits) (-d.exponent).toNat fun c hc => toDigits_digit hc
  refine ⟨c, whole, fraction, ?_, ?_, by omega, all⟩
  · unfold Digits.plain
    rw [if_neg (by omega)]
    simp only [split, String.toList_ofList, List.cons_append]
  · rw [joined, valueOf_zeros, valueOf_toDigits]

end Decimal

/-- A text of digits and points that begins with a digit. -/
def IsNumeral (text : List Char) : Prop :=
  ∃ c rest, text = c :: rest ∧ isAsciiDigit c = true ∧ ∀ d ∈ rest, isAsciiDigit d = true ∨ d = '.'

theorem isNumeral_digits {text : List Char} (hn : text ≠ [])
    (h : ∀ c ∈ text, isAsciiDigit c = true) : IsNumeral text := by
  rcases text with _ | ⟨c, rest⟩
  · exact absurd rfl hn
  · obtain ⟨hc, hr⟩ := List.forall_mem_cons.1 h
    exact ⟨c, rest, rfl, hc, fun d hd => .inl (hr d hd)⟩

theorem isNumeral_natText (n : Nat) : IsNumeral (Decimal.natText n).toList := by
  rw [Decimal.natText, String.toList_ofList]
  exact isNumeral_digits Nat.toDigits_ne_nil fun c hc => Decimal.toDigits_digit hc

theorem isNumeral_plain (d : Decimal.Digits) : IsNumeral (d.plain false).toList := by
  rcases lt_or_ge d.exponent 0 with places | none
  · obtain ⟨c, whole, fraction, text, -, -, all⟩ := Decimal.plain_places places false
    obtain ⟨hc, all⟩ := List.forall_mem_cons.1 all
    refine ⟨c, _, text, hc, fun e he => ?_⟩
    rcases List.mem_append.1 he with he | he
    · exact .inl (all e (List.mem_append_left _ he))
    · rcases List.mem_cons.1 he with rfl | he
      · exact .inr rfl
      · exact .inl (all e (List.mem_append_right _ he))
  · unfold Decimal.Digits.plain
    rw [if_pos none]
    simp only [Bool.false_eq_true, if_false, String.append_empty, String.toList_ofList]
    refine isNumeral_digits (by simp [Nat.toDigits_ne_nil]) fun c hc => ?_
    rcases List.mem_append.1 hc with hc | hc
    · exact Decimal.toDigits_digit hc
    · rw [List.eq_of_mem_replicate hc]
      rfl

/-- A finite number without a sign is printed with digits and at most a point. -/
theorem isNumeral_floatText {x : Float} {m : Decimal.Magnitude}
    (hx : Decimal.reading x = .finite m) (hn : Decimal.isNegative x = false) :
    IsNumeral (Value.floatText x).toList := by
  unfold Value.floatText
  split
  · have whole : Decimal.truncate x = m.truncate := by
      simp [Decimal.truncate, hx, hn]
    rw [whole, Decimal.intText_of_nonneg (by omega)]
    exact isNumeral_natText _
  · have text : Decimal.positional.text x "NaN" "Infinity" =
        (Decimal.shortest .up m).plain false := by
      simp [Decimal.Layout.text, hx, hn, Decimal.Layout.write, Decimal.positional]
    rw [text]
    exact isNumeral_plain _

end LiveTemplate
