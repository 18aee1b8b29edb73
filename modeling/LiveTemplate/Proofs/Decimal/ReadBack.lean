/-
The shortest decimal of a double reads back to it. The grids become finer than the interval of the
double before they are used up, so that one of them has a number in the interval; zeros at its end
do not change it, and its text is read as the quotient that it writes.
-/
import LiveTemplate.Proofs.Decimal.Numerals
import LiveTemplate.Proofs.Decimal.Rounding

namespace LiveTemplate.Decimal

open Text

/-! ## Grids -/

/-- The number that digits stand for. -/
def Digits.value (d : Digits) : ℚ := d.digits * 10 ^ d.exponent

theorem strip_value (d : Digits) (count : Nat) : (d.strip count).value = d.value := by
  induction count generalizing d with
  | zero => rfl
  | succ count ih =>
    unfold Digits.strip
    split
    case isTrue h =>
      rw [ih, Digits.value, Digits.value, zpow_add_one₀ (by norm_num)]
      have whole : (d.digits : ℚ) = (d.digits / 10 : Nat) * 10 := by
        have : d.digits = d.digits / 10 * 10 := by omega
        exact_mod_cast this
      rw [whole]
      ring
    case isFalse => rfl

/-- A double lies between the neighbours on a grid. -/
theorem gridFloor_bounds (m : Magnitude) (p : Int) :
    (gridFloor m p : ℚ) * 10 ^ p ≤ m.value ∧ m.value < (gridFloor m p + 1) * 10 ^ p := by
  have ten : (0 : ℚ) < 10 ^ p := by positivity
  have scale : (0 : ℚ) < 2 ^ (-m.exponent).toNat * 10 ^ (-p).toNat := by positivity
  have num : ((m.mantissa * pow2 m.exponent.toNat * pow10 (-p).toNat : Nat) : ℚ) =
      m.value * (2 ^ (-m.exponent).toNat * 10 ^ (-p).toNat) := by
    push_cast [cast_pow2, cast_pow10, Magnitude.value]
    rw [← zpow_toNat 2 (by norm_num) m.exponent]
    ring
  have den : ((pow10 p.toNat * pow2 (-m.exponent).toNat : Nat) : ℚ) =
      10 ^ p * (2 ^ (-m.exponent).toNat * 10 ^ (-p).toNat) := by
    push_cast [cast_pow2, cast_pow10]
    rw [← zpow_toNat 10 (by norm_num) p]
    ring
  have pos : 0 < pow10 p.toNat * pow2 (-m.exponent).toNat :=
    Nat.mul_pos (Nat.pow_pos (by decide)) (Nat.pow_pos (by decide))
  unfold gridFloor
  generalize m.mantissa * pow2 m.exponent.toNat * pow10 (-p).toNat = n at num ⊢
  generalize pow10 p.toNat * pow2 (-m.exponent).toNat = d at den pos ⊢
  generalize (2 ^ (-m.exponent).toNat * 10 ^ (-p).toNat : ℚ) = t at num den scale
  have below : ((n / d * d : Nat) : ℚ) ≤ n := by exact_mod_cast Nat.div_mul_le_self n d
  have above : (n : ℚ) < ((n / d + 1) * d : Nat) := by
    exact_mod_cast Nat.lt_mul_of_div_lt (Nat.lt_succ_self _) pos
  push_cast [num, den] at below above
  constructor
  · have : ((n / d : Nat) : ℚ) * 10 ^ p * t ≤ m.value * t := by linarith
    exact le_of_mul_le_mul_right this scale
  · have : m.value * t < ((n / d : Nat) + 1) * 10 ^ p * t := by linarith
    exact lt_of_mul_lt_mul_right this scale.le

theorem onGrid_near {tie : Tie} {m : Magnitude} {p : Int} {a : Nat} (h : onGrid tie m p = some a) :
    m.Near (a * 10 ^ p) := by
  rw [← readsBack_iff]
  unfold onGrid at h
  dsimp only at h
  split at h <;> cases h
  · split <;> assumption
  · assumption
  · assumption

/-- A grid finer than the upper half of the interval has a number in it. -/
theorem onGrid_isSome (tie : Tie) {m : Magnitude} {p : Int} (hm : 0 < m.mantissa)
    (hp : (10 : ℚ) ^ p < 2 ^ (m.exponent - 1)) : (onGrid tie m p).isSome = true := by
  have upper : readsBack m (gridFloor m p + 1) p = true := by
    obtain ⟨low, high⟩ := gridFloor_bounds m p
    have unit : (0 : ℚ) < 2 ^ m.exponent := by positivity
    have half : (2 : ℚ) ^ (m.exponent - 1) = 2 ^ m.exponent / 2 := by
      rw [zpow_sub_one₀ (by norm_num)]
      ring
    rw [half] at hp
    rw [readsBack_iff, Magnitude.Near, zpow_quarter, interval_fst hm, interval_snd]
    unfold Magnitude.value at low high
    push_cast
    refine ⟨.inl ?_, .inl ?_⟩
    · split <;> linarith
    · linarith
  unfold onGrid
  simp only [upper]
  cases readsBack m (gridFloor m p) p <;> rfl

theorem firstGrid_near (tie : Tie) {m : Magnitude} (hm : 0 < m.mantissa) (count : Nat) {p : Int}
    (hp : (10 : ℚ) ^ (p - count) < 2 ^ (m.exponent - 1)) :
    m.Near (firstGrid tie m p (count + 1)).value := by
  induction count generalizing p with
  | zero =>
    obtain ⟨a, ha⟩ := Option.isSome_iff_exists.1 (onGrid_isSome tie hm (by simpa using hp))
    rw [firstGrid, ha]
    exact onGrid_near ha
  | succ count ih =>
    rw [firstGrid]
    split
    · rename_i a ha
      exact onGrid_near ha
    · refine ih ?_
      rwa [show p - 1 - (count : Int) = p - ((count + 1 : Nat) : Int) by push_cast; ring]

/-- Grids with nineteen digits are finer than the interval of every double with places. -/
theorem grid_fine : ∀ k : Nat, k < 1075 →
    2 ^ (k + 1) < 10 ^ (17 - (53 - (k : Int)) * 30103 / 100000).toNat := by
  decide +kernel

/-- The shortest decimal of a double lies in the interval of the double. -/
theorem shortest_near (tie : Tie) {m : Magnitude} (hm : 0 < m.mantissa) (short : m.mantissa < 2 ^ 53)
    (least : -1074 ≤ m.exponent) (places : m.exponent < 0) : m.Near (shortest tie m).value := by
  have log : m.mantissa.log2 ≤ 52 := Nat.le_of_lt_succ ((Nat.log2_lt (by omega)).2 short)
  obtain ⟨k, hk⟩ : ∃ k : Nat, m.exponent = -(k : Int) := ⟨(-m.exponent).toNat, by omega⟩
  have coarse : decimalExponent m - 18 ≤ -((17 - (53 - (k : Int)) * 30103 / 100000).toNat : Int) := by
    have fine := grid_fine k (by omega)
    unfold decimalExponent
    rw [hk]
    have step : ((m.mantissa.log2 : Int) + -(k : Int) + 1) * 30103 / 100000 ≤
        (53 - (k : Int)) * 30103 / 100000 := by
      apply Int.ediv_le_ediv (by norm_num)
      linarith
    omega
  rw [shortest, if_neg (Nat.ne_of_gt hm), strip_value]
  refine firstGrid_near tie hm 18 ?_
  calc (10 : ℚ) ^ (decimalExponent m - (18 : Nat))
      ≤ 10 ^ (-((17 - (53 - (k : Int)) * 30103 / 100000).toNat : Int)) :=
        zpow_le_zpow_right₀ (by norm_num) coarse
    _ < 2 ^ (m.exponent - 1) := by
      rw [hk, show -(k : Int) - 1 = -((k + 1 : Nat) : Int) by push_cast; ring, zpow_neg, zpow_neg,
        zpow_natCast, zpow_natCast]
      apply inv_strictAnti₀ (by positivity)
      exact_mod_cast grid_fine k (by omega)

/-- The interval reaches half of the last bit at most to either side. -/
theorem Magnitude.Near.bounds {m : Magnitude} (hm : 0 < m.mantissa) {v : ℚ} (h : m.Near v) :
    (m.mantissa - 1 / 2) * 2 ^ m.exponent ≤ v ∧ v ≤ (m.mantissa + 1 / 2) * 2 ^ m.exponent := by
  have unit : (0 : ℚ) < 2 ^ m.exponent := by positivity
  obtain ⟨low, high⟩ := h
  rw [zpow_quarter, interval_fst hm] at low
  rw [zpow_quarter, interval_snd] at high
  constructor
  · split at low <;> rcases low with low | ⟨-, low⟩ <;> linarith
  · rcases high with high | ⟨-, high⟩ <;> linarith

/-- A whole number in the interval of a double with places is the double itself. -/
theorem whole_of_near {m : Magnitude} (hm : 0 < m.mantissa) (places : m.exponent < 0) {n : Nat}
    (h : m.Near n) : m.isWhole = true := by
  obtain ⟨low, high⟩ := h.bounds hm
  have positive : (0 : ℚ) < 2 ^ (-m.exponent).toNat := by positivity
  have scale : (2 : ℚ) ^ m.exponent * 2 ^ (-m.exponent).toNat = 1 := by
    rw [zpow_toNat 2 (by norm_num), show m.exponent.toNat = 0 by omega, pow_zero]
  -- counted in the last bit, the whole number is a natural number half a bit off at most
  have below : (m.mantissa - 1 / 2 : ℚ) ≤ n * 2 ^ (-m.exponent).toNat := by
    have := mul_le_mul_of_nonneg_right low positive.le
    rwa [mul_assoc, scale, mul_one] at this
  have above : (n * 2 ^ (-m.exponent).toNat : ℚ) ≤ m.mantissa + 1 / 2 := by
    have := mul_le_mul_of_nonneg_right high positive.le
    rwa [mul_assoc _ ((2 : ℚ) ^ m.exponent), scale, mul_one] at this
  have same : m.mantissa = n * 2 ^ (-m.exponent).toNat := by
    have below : (2 * m.mantissa : ℚ) ≤ 2 * (n * 2 ^ (-m.exponent).toNat) + 1 := by linarith
    have above : (2 * (n * 2 ^ (-m.exponent).toNat) : ℚ) ≤ 2 * m.mantissa + 1 := by linarith
    have below : 2 * m.mantissa ≤ 2 * (n * 2 ^ (-m.exponent).toNat) + 1 := by exact_mod_cast below
    have above : 2 * (n * 2 ^ (-m.exponent).toNat) ≤ 2 * m.mantissa + 1 := by exact_mod_cast above
    omega
  unfold Magnitude.isWhole
  rw [same, show m.exponent.toNat = 0 by omega]
  simp [pow2]

/-! ## The text of a double -/

theorem digits_bounds {n : Nat} (h : 0 < n) :
    (10 : ℚ) ^ (((Nat.toDigits 10 n).length : Int) - 1) ≤ n ∧
      (n : ℚ) < 10 ^ ((Nat.toDigits 10 n).length : Int) := by
  have some : 0 < (Nat.toDigits 10 n).length := List.length_pos_of_ne_nil Nat.toDigits_ne_nil
  have upper : n < 10 ^ (Nat.toDigits 10 n).length :=
    (Nat.length_toDigits_le_iff (by decide) some).1 (Nat.le_refl _)
  have lower : 10 ^ ((Nat.toDigits 10 n).length - 1) ≤ n := by
    by_contra hlt
    rcases Nat.eq_or_lt_of_le some with one | more
    · rw [← one] at hlt
      simp at hlt
      omega
    · have := (Nat.length_toDigits_le_iff (by decide) (by omega)).2 (not_le.1 hlt)
      omega
  refine ⟨?_, ?_⟩
  · rw [show ((Nat.toDigits 10 n).length : Int) - 1 = ((Nat.toDigits 10 n).length - 1 : Nat) by omega,
      zpow_natCast]
    exact_mod_cast lower
  · rw [zpow_natCast]
    exact_mod_cast upper

/-- A number in the interval of a double with places is neither far too small nor far too large to be
read. -/
theorem near_range {m : Magnitude} (hm : 0 < m.mantissa) (short : m.mantissa < 2 ^ 53)
    (least : -1074 ≤ m.exponent) (places : m.exponent < 0) {v : ℚ} (h : m.Near v) :
    (10 : ℚ) ^ (-400 : Int) < v ∧ v < 10 ^ (400 : Int) := by
  obtain ⟨low, high⟩ := h.bounds hm
  have one : (1 : ℚ) ≤ m.mantissa := by exact_mod_cast hm
  have bound : (m.mantissa : ℚ) + 1 / 2 ≤ 2 ^ 54 := by
    have : (m.mantissa : ℚ) ≤ 2 ^ 53 := by exact_mod_cast short.le
    linarith
  constructor
  · calc (10 : ℚ) ^ (-400 : Int) < 2 ^ (-1075 : Int) := by
          rw [zpow_neg, zpow_neg]
          apply inv_strictAnti₀ (by positivity)
          exact_mod_cast (by decide +kernel : 2 ^ 1075 < 10 ^ 400)
      _ ≤ 2 ^ (m.exponent - 1) := zpow_le_zpow_right₀ (by norm_num) (by omega)
      _ = 1 / 2 * 2 ^ m.exponent := by
          rw [zpow_sub_one₀ (by norm_num)]
          ring
      _ ≤ (m.mantissa - 1 / 2) * 2 ^ m.exponent := by
          gcongr
          linarith
      _ ≤ v := low
  · calc v ≤ (m.mantissa + 1 / 2) * 2 ^ m.exponent := high
      _ ≤ 2 ^ 54 * 1 := by
          gcongr
          exact zpow_le_one_of_nonpos₀ (by norm_num) places.le
      _ < 10 ^ (400 : Int) := by exact_mod_cast (by decide +kernel : 2 ^ 54 * 1 < 10 ^ 400)

/-- The bits that are read from a decimal in the interval of a double. -/
theorem bits_of_near {b : Nat} {m : Magnitude} (hb : b < 2 ^ 63) (hr : double.read b = .finite m)
    (hm : 0 < m.mantissa) (places : m.exponent < 0) {d : Digits} (hd : d.exponent < 0)
    (h : m.Near d.value) : (Numeral.decimal d.digits d.exponent).bits double = b := by
  obtain ⟨least, -, short, -, -⟩ := read_bits hb hr
  obtain ⟨small, large⟩ := near_range hm short least places h
  have digits : 0 < d.digits := by
    by_contra hz
    have := h.pos hm
    rw [Digits.value, show d.digits = 0 by omega] at this
    simp at this
  obtain ⟨lower, upper⟩ := digits_bounds digits
  have notTiny : ¬ ((Nat.toDigits 10 d.digits).length : Int) + d.exponent < -400 := by
    intro hw
    have : d.value ≤ 10 ^ (-400 : Int) := by
      calc d.value ≤ 10 ^ ((Nat.toDigits 10 d.digits).length : Int) * 10 ^ d.exponent := by
            rw [Digits.value]
            gcongr
        _ = 10 ^ (((Nat.toDigits 10 d.digits).length : Int) + d.exponent) := by
            rw [zpow_add₀ (by norm_num)]
        _ ≤ 10 ^ (-400 : Int) := zpow_le_zpow_right₀ (by norm_num) hw.le
    exact absurd small (not_lt.2 this)
  have notHuge : ¬ 400 < ((Nat.toDigits 10 d.digits).length : Int) + d.exponent := by
    intro hw
    have : (10 : ℚ) ^ (400 : Int) ≤ d.value := by
      calc (10 : ℚ) ^ (400 : Int) ≤ 10 ^ (((Nat.toDigits 10 d.digits).length : Int) - 1 + d.exponent) :=
            zpow_le_zpow_right₀ (by norm_num) (by omega)
        _ = 10 ^ (((Nat.toDigits 10 d.digits).length : Int) - 1) * 10 ^ d.exponent := by
            rw [zpow_add₀ (by norm_num)]
        _ ≤ d.value := by
            rw [Digits.value]
            gcongr
    exact absurd large (not_lt.2 this)
  have quotient : ((d.digits * pow10 d.exponent.toNat : Nat) : ℚ) / (pow10 (-d.exponent).toNat : Nat) =
      d.value := by
    have scale := zpow_toNat 10 (by norm_num) d.exponent
    rw [show d.exponent.toNat = 0 by omega] at scale ⊢
    push_cast [cast_pow10]
    rw [Digits.value, div_eq_iff (by positivity), mul_assoc, scale]
  unfold Numeral.bits
  dsimp only
  rw [if_neg (not_or.2 ⟨Nat.ne_of_gt digits, notTiny⟩), if_neg notHuge]
  refine round_of_near hb hr hm (Nat.pow_pos (by decide)) ?_
  rwa [quotient]

/-- A decimal with places is read as it is laid out. -/
theorem readDecimal_plain {d : Digits} (h : d.exponent < 0) (wholePoint : Bool) :
    readDecimal (d.plain wholePoint).toList = some (.decimal d.digits d.exponent) := by
  obtain ⟨c, whole, fraction, text, value, length, all⟩ := plain_places h wholePoint
  have digits : ∀ e ∈ c :: whole, isAsciiDigit e = true :=
    fun e he => all e (by simpa using List.mem_append_left fraction he)
  have places : ∀ e ∈ fraction, isAsciiDigit e = true :=
    fun e he => all e (by simp [he])
  have point : isAsciiDigit '.' = false := rfl
  rw [text, ← List.cons_append, readDecimal, List.takeWhile_append_of_pos digits,
    List.dropWhile_append_of_pos digits]
  simp only [List.takeWhile_cons, List.dropWhile_cons, point, Bool.false_eq_true, if_false]
  rw [List.takeWhile_eq_self_iff.2 places, List.dropWhile_eq_nil_iff.2 places]
  simp only [List.append_nil, List.isEmpty_cons, Bool.false_and, Bool.false_eq_true, if_false,
    readExponent, Option.map_some, List.cons_append, value, length]
  congr 2
  omega

/-- A text that begins with a digit or a point has no sign and is none of the words. -/
theorem readNumeral_of_digit {c : Char} (rest : List Char) (hc : isAsciiDigit c = true ∨ c = '.') :
    readNumeral (c :: rest) = (readDecimal (c :: rest)).map fun n => (false, n) := by
  have upper : c.toLower = c := by
    rcases hc with hc | rfl
    · refine Char.toLower_eq_of_not_isUpper ?_
      simp only [isAsciiDigit, Bool.and_eq_true, decide_eq_true_eq, Char.le_def, UInt32.le_iff_toNat_le] at hc
      have : c.val.toNat ≤ 57 := hc.2
      simp only [Char.isUpper, decide_eq_true_eq, UInt32.le_iff_toNat_le, ge_iff_le]
      rintro ⟨low, -⟩
      have : 65 ≤ c.val.toNat := low
      omega
    · rfl
  have ne (d : Char) (hd : isAsciiDigit d = false) (hp : d ≠ '.') : c ≠ d := by
    rcases hc with hc | rfl
    · exact ne_of_test hc hd
    · exact hp.symm
  have sign : takeSign (c :: rest) = (false, c :: rest) := by
    unfold takeSign
    split
    · rename_i h
      exact absurd (List.cons.inj h).1 (ne '-' rfl (by decide))
    · rename_i h
      exact absurd (List.cons.inj h).1 (ne '+' rfl (by decide))
    · rfl
  have word {w : String} {d : Char} {tail : List Char} (hw : w.toList = d :: tail) (hne : c ≠ d) :
      String.ofList ((c :: rest).map Char.toLower) ≠ w := by
    rintro rfl
    rw [String.toList_ofList, List.map_cons, upper] at hw
    exact hne (List.cons.inj hw).1
  have i := ne 'i' rfl (by decide)
  simp only [readNumeral, sign]
  rw [if_neg (not_or.2 ⟨word rfl i, word rfl i⟩), if_neg (word rfl (ne 'n' rfl (by decide)))]

/-- A double that is not whole has places and so has its shortest decimal, which reads back. -/
theorem shortest_places {x : Float} {m : Magnitude} (hx : reading x = .finite m)
    (hw : isWhole x = false) : (shortest .up m).exponent < 0 ∧
      (Numeral.decimal (shortest .up m).digits (shortest .up m).exponent).bits double =
        x.toBits.toNat % pow2 63 := by
  have bits : x.toBits.toNat % pow2 63 < 2 ^ 63 := Nat.mod_lt _ (by decide)
  obtain ⟨least, -, short, -, -⟩ := read_bits bits hx
  have fraction : m.isWhole = false := by simpa [isWhole, hx] using hw
  have places : m.exponent < 0 := by
    by_contra hp
    rw [Magnitude.isWhole, show (-m.exponent).toNat = 0 by omega] at fraction
    simp [pow2, Nat.mod_one] at fraction
  have positive : 0 < m.mantissa := by
    by_contra hz
    simp [Magnitude.isWhole, show m.mantissa = 0 by omega] at fraction
  have near := shortest_near .up positive short least places
  have exponent : (shortest .up m).exponent < 0 := by
    by_contra hp
    obtain ⟨k, hk⟩ : ∃ k : Nat, (shortest .up m).exponent = k :=
      ⟨_, (Int.toNat_of_nonneg (by omega)).symm⟩
    have whole : (shortest .up m).value = ((shortest .up m).digits * 10 ^ k : Nat) := by
      rw [Digits.value, hk, zpow_natCast]
      push_cast
      rfl
    rw [whole] at near
    rw [whole_of_near positive places near] at fraction
    cases fraction
  exact ⟨exponent, bits_of_near bits hx positive places exponent near⟩

/-- The text of a double that is not whole is digits and a point, and is read as the double. -/
theorem parseDouble_floatText {x : Float} {m : Magnitude} (hx : reading x = .finite m)
    (hn : isNegative x = false) (hw : isWhole x = false) :
    parseDouble (Value.floatText x).toList = some x ∧ '.' ∈ (Value.floatText x).toList := by
  obtain ⟨exponent, bits⟩ := shortest_places hx hw
  have text : Value.floatText x = (shortest .up m).plain false := by
    simp [Value.floatText, hw, Layout.text, hx, hn, Layout.write, positional]
  have plain := readDecimal_plain exponent false
  obtain ⟨c, whole, fraction, first, -, -, all⟩ := plain_places exponent false
  rw [first] at plain
  rw [text, first]
  refine ⟨?_, by simp⟩
  rw [parseDouble, readNumeral_of_digit _ (.inl (all c (by simp))), plain]
  simp only [Option.map_some, bits, ofMagnitudeBits_toBits hn]

end LiveTemplate.Decimal
