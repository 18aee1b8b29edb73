/-
Integers written as texts and read again. The reader takes the sign off, reads the digits behind it
as a number below 2^63, and puts the sign back; so it reads every integer that a value can hold but
the least one, whose digits alone are too many.
-/
import LiveTemplate.Functions.Builtins
import LiveTemplate.Proofs.Decimal.Numerals
import Mathlib.Data.List.TakeWhile

namespace LiveTemplate

open Text

/-! ## Digits -/

namespace Decimal

theorem digitValue_of_isAsciiDigit {c : Char} (h : isAsciiDigit c = true) :
    digitValue c = some (c.toNat - 48) ∧ c.toNat - 48 < 10 := by
  refine ⟨by rw [digitValue, if_pos h], ?_⟩
  simp only [isAsciiDigit, Bool.and_eq_true, decide_eq_true_eq] at h
  have last : c.toNat ≤ 57 := h.2
  omega

/-- Decimal digits are read as the number that they write. -/
theorem natOfDigits_ten {digits : List Char} (hn : digits ≠ [])
    (h : ∀ c ∈ digits, isAsciiDigit c = true) : natOfDigits 10 digits = some (valueOf digits) := by
  have fold (n : Nat) : digits.foldlM (fun n c => (digitValue c).bind fun d =>
      if d < 10 then some (n * 10 + d) else none) n =
        some (digits.foldl (fun n c => n * 10 + (c.toNat - 48)) n) := by
    clear hn
    induction digits generalizing n with
    | nil => rfl
    | cons c digits ih =>
      obtain ⟨hc, h⟩ := List.forall_mem_cons.1 h
      obtain ⟨value, small⟩ := digitValue_of_isAsciiDigit hc
      rw [List.foldlM_cons, value, Option.bind_some, if_pos small]
      exact ih h _
  rw [natOfDigits, List.isEmpty_eq_false_iff.2 hn]
  exact fold 0

theorem natOfDigits_toDigits (n : Nat) : natOfDigits 10 (Nat.toDigits 10 n) = some n := by
  rw [natOfDigits_ten Nat.toDigits_ne_nil fun c hc => toDigits_digit hc, valueOf_toDigits]

end Decimal

namespace Builtin

theorem baseOf_null : baseOf .null = 10 := by decide

theorem isDigitOf_ten {c : Char} (h : isAsciiDigit c = true) : isDigitOf 10 c = true := by
  obtain ⟨value, small⟩ := Decimal.digitValue_of_isAsciiDigit h
  simp [isDigitOf, value, small]

theorem isBlank_digit {c : Char} (h : isAsciiDigit c = true) : isBlank c = false := by
  simp only [isAsciiDigit, Bool.and_eq_true, decide_eq_true_eq] at h
  have first : 48 ≤ c.toNat := h.1
  have last : c.toNat ≤ 57 := h.2
  simp only [isBlank, blankRanges, Ranges.has, List.any_cons, List.any_nil, Bool.or_false,
    Bool.or_eq_false_iff, Bool.and_eq_false_iff, decide_eq_false_iff_not]
  omega

/-- The text of an integer is an optional sign and digits, with no blank in front. -/
theorem takeSign_intText (i : Int) : Decimal.takeSign (trimStart (Decimal.intText i).toList) =
    (decide (i < 0), Nat.toDigits 10 i.natAbs) := by
  have text : (Decimal.natText i.natAbs).toList = Nat.toDigits 10 i.natAbs := String.toList_ofList
  have digits : ∀ c ∈ Nat.toDigits 10 i.natAbs, isAsciiDigit c = true :=
    fun c hc => Decimal.toDigits_digit hc
  rw [Decimal.intText]
  by_cases negative : i < 0
  · rw [if_pos negative, String.toList_append, text, decide_eq_true negative]
    rfl
  · rw [if_neg negative, text, decide_eq_false negative]
    obtain ⟨c, rest, eq⟩ :=
      List.exists_cons_of_ne_nil (Nat.toDigits_ne_nil (b := 10) (n := i.natAbs))
    rw [eq] at digits ⊢
    have digit := digits c List.mem_cons_self
    rw [trimStart, List.dropWhile_cons_of_neg (by simp [isBlank_digit digit]), Decimal.takeSign]
    · exact fun _ same => ne_of_test digit rfl (List.cons.inj same).1
    · exact fun _ same => ne_of_test digit rfl (List.cons.inj same).1

/-- Digits begin with no mark of a base. -/
theorem ne_mark {ds : List Char} (h : ∀ c ∈ ds, isAsciiDigit c = true) (rest : List Char) :
    ds ≠ '0' :: 'x' :: rest ∧ ds ≠ '0' :: 'X' :: rest := by
  constructor <;> rintro rfl
  · exact absurd rfl (ne_of_test (h 'x' (by simp)) rfl)
  · exact absurd rfl (ne_of_test (h 'X' (by simp)) rfl)

/-- The text of an integer is read as the integer if its digits write a number below 2^63. -/
theorem parseInt_intText (i : Int) : parseInt [.text (Decimal.intText i)] =
    if i.natAbs < 2 ^ 63 then .int (Int64.ofInt i) else .float Value.nan := by
  have digits : ∀ c ∈ Nat.toDigits 10 i.natAbs, isAsciiDigit c = true :=
    fun c hc => Decimal.toDigits_digit hc
  have run : (Nat.toDigits 10 i.natAbs).takeWhile (isDigitOf 10) = Nat.toDigits 10 i.natAbs :=
    List.takeWhile_eq_self_iff.2 fun c hc => isDigitOf_ten (digits c hc)
  have number := Decimal.natOfDigits_toDigits i.natAbs
  have signed : (if decide (i < 0) = true then -(i.natAbs : Int) else i.natAbs) = i := by
    by_cases negative : i < 0
    · rw [if_pos (decide_eq_true negative)]
      omega
    · rw [if_neg (by simpa using negative)]
      omega
  have text : (argument [.text (Decimal.intText i)] 0).display = Decimal.intText i := rfl
  have base : baseOf (argument [.text (Decimal.intText i)] 1) = 10 := baseOf_null
  unfold parseInt
  simp only [text, base, takeSign_intText]
  -- with these two at hand the match on a mark has its last case left
  have small (rest : List Char) := (ne_mark digits rest).1
  have capital (rest : List Char) := (ne_mark digits rest).2
  have ten : Int.toNat 10 = 10 := rfl
  rw [if_neg (by decide)]
  simp only [ten, run, number, signed]
  rfl

end Builtin

/-! ## Integers as values -/

/-- The functions `String` and `parseInt`, one after the other, give back every integer but the least
one, which is read as not a number. -/
theorem parseInt_string (n : Int64) : ∃ string parseInt,
    builtins.get? "String" = some string ∧ builtins.get? "parseInt" = some parseInt ∧
      (string [.int n] >>= fun text => parseInt [text]) =
        return if n = Int64.minValue then .float Value.nan else .int n := by
  refine ⟨_, _, rfl, rfl, ?_⟩
  show (return Builtin.parseInt [.text (Decimal.intText n.toInt)] :
    ExceptT Error Fresh Value) = _
  rw [Builtin.parseInt_intText, Int64.ofInt_toInt]
  have bounds := n.le_toInt
  have above := n.toInt_lt
  have least : n = Int64.minValue ↔ n.toInt = -2 ^ 63 := by
    rw [← Int64.toInt_inj]
    rfl
  by_cases h : n = Int64.minValue
  · rw [if_pos h, if_neg]
    have := least.1 h
    omega
  · rw [if_neg h, if_pos]
    have := mt least.2 h
    omega

theorem parseInt_string_least :
    (Value.int Int64.minValue).display = "-9223372036854775808" ∧
      (∃ string parseInt,
        builtins.get? "String" = some string ∧ builtins.get? "parseInt" = some parseInt ∧
          (string [.int Int64.minValue] >>= fun text => parseInt [text]) =
            return .float Value.nan) ∧
      Value.float Value.nan ≠ .int Int64.minValue := by
  refine ⟨by decide +kernel, ⟨_, _, rfl, rfl, ?_⟩, nofun⟩
  show (return Builtin.parseInt [.text (Decimal.intText Int64.minValue.toInt)] :
    ExceptT Error Fresh Value) = _
  rw [Builtin.parseInt_intText, if_neg (by decide)]

end LiveTemplate
