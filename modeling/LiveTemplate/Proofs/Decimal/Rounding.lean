/-
Rounding to the nearest double. The numbers that a finite double stands for form an interval around
it; every quotient in the interval is rounded to the bits of the double. All of it is said in
rational numbers, of which the exact arithmetic of the code is one numerator and one denominator.
-/
import LiveTemplate.Decimal.Shortest
import Mathlib

namespace LiveTemplate.Decimal

/-! ## Bits -/

/-- Bits up to those of infinity are kept. -/
theorem toBits_ofBits {b : UInt64} (h : b.toNat ≤ double.infinity) : (Float.ofBits b).toBits = b := by
  have bound : b.toNat ≤ 2047 * 2 ^ 52 := h
  have valid : Float.Model.Format.binary64.Valid b.toBitVec := by
    constructor
    intro he hm
    have high := congrArg BitVec.toNat he
    rw [Float.Model.UnpackedFloat.unpackExponent_def] at high
    have exponent : (b.toNat / 2 ^ 52) % 2 ^ 11 = 2047 := by
      simpa [BitVec.extractLsb'_toNat, Nat.shiftRight_eq_div_pow] using high
    have mantissa : b.toNat % 2 ^ 52 = 0 := by omega
    refine absurd (BitVec.eq_of_toNat_eq ?_) hm
    rw [Float.Model.UnpackedFloat.unpackMantissa_def]
    simpa [BitVec.extractLsb'_toNat] using mantissa
  show UInt64.ofBitVec (Float.Model.UnpackedFloat.pack Float.Model.Format.binary64
    (Float.Model.UnpackedFloat.unpack Float.Model.Format.binary64 b.toBitVec)) = b
  rw [Float.Model.UnpackedFloat.pack_unpack_of_valid valid]

theorem toBits_ofMagnitudeBits {n : Nat} (h : n ≤ double.infinity) :
    (ofMagnitudeBits false n).toBits.toNat = n := by
  have small : n < 2 ^ 64 := Nat.lt_of_le_of_lt h (by decide)
  have bits : (UInt64.ofNat n).toNat = n := by
    rw [UInt64.toNat_ofNat', Nat.mod_eq_of_lt small]
  show (Float.ofBits (UInt64.ofNat n)).toBits.toNat = n
  rw [toBits_ofBits (by rwa [bits]), bits]

/-- Bits below those of infinity are those of a finite number without a sign. -/
theorem reading_ofMagnitudeBits {n : Nat} (h : n < double.infinity) :
    (∃ m, reading (ofMagnitudeBits false n) = .finite m) ∧
      isNegative (ofMagnitudeBits false n) = false := by
  have bound : n < 2047 * 2 ^ 52 := h
  have small : n < pow2 63 := by
    show n < 2 ^ 63
    omega
  rw [reading, isNegative, toBits_ofMagnitudeBits (Nat.le_of_lt h), Nat.mod_eq_of_lt small]
  refine ⟨?_, by simpa using small⟩
  have stored : ¬ n / pow2 52 = 2047 := by
    show ¬ n / 2 ^ 52 = 2047
    omega
  unfold BinaryFormat.read
  simp only [double, stored, if_false]
  by_cases subnormal : n / pow2 (53 - 1) = 0
  · exact ⟨_, if_pos subnormal⟩
  · exact ⟨_, if_neg subnormal⟩

/-- The double with the bits of another one is that one. -/
theorem ofMagnitudeBits_toBits {x : Float} (h : isNegative x = false) :
    ofMagnitudeBits false (x.toBits.toNat % pow2 63) = x := by
  have small : x.toBits.toNat < pow2 63 := by simpa [isNegative] using h
  rw [Nat.mod_eq_of_lt small]
  show Float.ofBits (UInt64.ofNat x.toBits.toNat) = x
  rw [UInt64.ofNat_toNat, Float.ofBits_toBits]

/-! ## Powers -/

theorem zpow_toNat (b : ℚ) (hb : 0 < b) (e : Int) : b ^ e * b ^ (-e).toNat = b ^ e.toNat := by
  rw [← zpow_natCast, ← zpow_natCast, ← zpow_add₀ (ne_of_gt hb)]
  congr 1
  omega

theorem cast_pow2 (k : Nat) : ((pow2 k : Nat) : ℚ) = 2 ^ k := by
  simp [pow2]

theorem cast_pow10 (k : Nat) : ((pow10 k : Nat) : ℚ) = 10 ^ k := by
  simp [pow10]

/-! ## The interval of a double -/

/-- The number a magnitude stands for. -/
def Magnitude.value (m : Magnitude) : ℚ := m.mantissa * 2 ^ m.exponent

/-- A number lies in the interval that rounds to a magnitude, of which the ends belong to it when the
mantissa is even. -/
def Magnitude.Near (m : Magnitude) (v : ℚ) : Prop :=
  ((interval m).1 * (2 : ℚ) ^ (m.exponent - 2) < v ∨
      m.mantissa % 2 = 0 ∧ (interval m).1 * (2 : ℚ) ^ (m.exponent - 2) = v) ∧
    (v < (interval m).2 * (2 : ℚ) ^ (m.exponent - 2) ∨
      m.mantissa % 2 = 0 ∧ v = (interval m).2 * (2 : ℚ) ^ (m.exponent - 2))

/-- Comparing scaled numbers is comparing their values. -/
theorem compareScaled_eq (a : Nat) (p : Int) (b : Nat) (q : Int) :
    compareScaled a p b q = compare ((a : ℚ) * 10 ^ p) (b * 2 ^ q) := by
  have scale : (0 : ℚ) < 2 ^ (-q).toNat * 10 ^ (-p).toNat := by positivity
  have left : ((a * pow10 p.toNat * pow2 (-q).toNat : Nat) : ℚ) =
      a * 10 ^ p * (2 ^ (-q).toNat * 10 ^ (-p).toNat) := by
    push_cast [cast_pow2, cast_pow10]
    rw [← zpow_toNat 10 (by norm_num) p]
    ring
  have right : ((b * pow2 q.toNat * pow10 (-p).toNat : Nat) : ℚ) =
      b * 2 ^ q * (2 ^ (-q).toNat * 10 ^ (-p).toNat) := by
    push_cast [cast_pow2, cast_pow10]
    rw [← zpow_toNat 2 (by norm_num) q]
    ring
  have lt {i j : Nat} {x y : ℚ} (hi : (i : ℚ) = x * (2 ^ (-q).toNat * 10 ^ (-p).toNat))
      (hj : (j : ℚ) = y * (2 ^ (-q).toNat * 10 ^ (-p).toNat)) : i < j ↔ x < y := by
    rw [← Nat.cast_lt (α := ℚ), hi, hj]
    exact mul_lt_mul_iff_of_pos_right scale
  unfold compareScaled
  rcases lt_trichotomy ((a : ℚ) * 10 ^ p) (b * 2 ^ q) with h | h | h
  · rw [compare_lt_iff_lt.2 h, compare_lt_iff_lt.2 ((lt left right).2 h)]
  · have same : a * pow10 p.toNat * pow2 (-q).toNat = b * pow2 q.toNat * pow10 (-p).toNat := by
      have : ((a * pow10 p.toNat * pow2 (-q).toNat : Nat) : ℚ) =
          (b * pow2 q.toNat * pow10 (-p).toNat : Nat) := by rw [left, right, h]
      exact_mod_cast this
    rw [compare_eq_iff_eq.2 h, compare_eq_iff_eq.2 same]
  · rw [compare_gt_iff_gt.2 h, compare_gt_iff_gt.2 ((lt right left).2 h)]

theorem readsBack_iff (m : Magnitude) (a : Nat) (p : Int) :
    readsBack m a p = true ↔ m.Near (a * 10 ^ p) := by
  unfold readsBack Magnitude.Near
  simp only [compareScaled_eq, Bool.and_eq_true, Bool.or_eq_true, beq_iff_eq, decide_eq_true_eq,
    compare_gt_iff_gt, compare_lt_iff_lt, compare_eq_iff_eq]
  tauto

/-! ## Rounding a quotient -/

/-- A quotient within half a unit of a number is rounded to it; at half a unit, if it is even. -/
theorem roundDiv_eq {n d k : Nat} (hd : 0 < d)
    (low : (2 * k - 1 : ℤ) * d < 2 * n ∨ k % 2 = 0 ∧ (2 * k - 1 : ℤ) * d = 2 * n)
    (high : 2 * n < (2 * k + 1) * d ∨ k % 2 = 0 ∧ 2 * n = (2 * k + 1) * d) : roundDiv n d = k := by
  have split := Nat.div_add_mod n d
  have less := Nat.mod_lt n hd
  unfold roundDiv
  dsimp only
  generalize n / d = q at *
  generalize n % d = r at *
  subst split
  push_cast at low
  have above : k ≤ q + 1 := by
    by_contra h
    have : (q + 2 : ℤ) ≤ k := by omega
    rcases low with low | ⟨-, low⟩ <;> nlinarith
  have below : q ≤ k := by
    by_contra h
    have : k + 1 ≤ q := by omega
    rcases high with high | ⟨-, high⟩ <;> nlinarith
  rcases Nat.lt_or_ge q k with hk | hk
  · obtain rfl : k = q + 1 := by omega
    rw [if_pos]
    rcases low with low | ⟨even, low⟩
    · left
      push_cast at low
      have : (d : ℤ) < 2 * r := by nlinarith
      exact_mod_cast this
    · right
      push_cast at low
      have : (2 * r : ℤ) = d := by nlinarith
      exact ⟨by exact_mod_cast this, by omega⟩
  · obtain rfl : q = k := by omega
    rw [if_neg]
    rintro (h | ⟨h, odd⟩)
    · rcases high with high | ⟨-, high⟩ <;> nlinarith
    · rcases high with high | ⟨even, -⟩
      · nlinarith
      · omega

/-! ## Exponents -/

/-- The exponent at which a number has as many bits as a double holds. -/
structure Fits (v : ℚ) (e : Int) : Prop where
  least : -1074 ≤ e
  below : v < 2 ^ 53 * 2 ^ e
  above : e = -1074 ∨ 2 ^ 52 * 2 ^ e ≤ v

/-- There is only one such exponent. -/
theorem Fits.unique {v : ℚ} {e e' : Int} (h : Fits v e) (h' : Fits v e') : e = e' := by
  have le {a b : Int} (ha : Fits v a) (hb : Fits v b) : a ≤ b := by
    by_contra hlt
    rcases ha.above with he | he
    · have := hb.least
      omega
    · have step : (2 : ℚ) ^ (b + 1) ≤ 2 ^ a := zpow_le_zpow_right₀ (by norm_num) (by omega)
      rw [zpow_add_one₀ (by norm_num)] at step
      have := hb.below
      linarith
  exact Int.le_antisymm (le h h') (le h' h)

theorem scaleDown_value (num den : Nat) (e : Int) :
    ((scaleDown num den e).1 : ℚ) = num * 2 ^ (-e).toNat ∧
      ((scaleDown num den e).2 : ℚ) = den * 2 ^ e * 2 ^ (-e).toNat := by
  refine ⟨?_, ?_⟩
  · simp only [scaleDown, Nat.cast_mul, cast_pow2]
  · simp only [scaleDown, Nat.cast_mul, cast_pow2, mul_assoc, zpow_toNat 2 (by norm_num) e]

theorem scaleDown_pos {den : Nat} (h : 0 < den) (num : Nat) (e : Int) : 0 < (scaleDown num den e).2 :=
  Nat.mul_pos h (Nat.pow_pos (by decide))

/-- The scaled quotient is below a number when the number itself is below its multiple. -/
theorem scaleDown_lt (num : Nat) {den : Nat} (hd : 0 < den) (e : Int) (k : Nat) :
    (scaleDown num den e).1 / (scaleDown num den e).2 < k ↔ (num / den : ℚ) < k * 2 ^ e := by
  obtain ⟨hn, hs⟩ := scaleDown_value num den e
  have pos : (0 : ℚ) < den := by exact_mod_cast hd
  have scale : (0 : ℚ) < 2 ^ (-e).toNat := by positivity
  rw [Nat.div_lt_iff_lt_mul (scaleDown_pos hd num e), ← Nat.cast_lt (α := ℚ), Nat.cast_mul, hn, hs,
    div_lt_iff₀ pos]
  constructor
  · intro h
    have : (num : ℚ) * 2 ^ (-e).toNat < k * 2 ^ e * den * 2 ^ (-e).toNat := by linarith
    exact lt_of_mul_lt_mul_right this scale.le
  · intro h
    have := mul_lt_mul_of_pos_right h scale
    linarith

theorem cast_log2 {n : Nat} (h : 0 < n) :
    (2 : ℚ) ^ (n.log2 : Int) ≤ n ∧ (n : ℚ) < 2 ^ ((n.log2 : Int) + 1) := by
  refine ⟨?_, ?_⟩
  · rw [zpow_natCast]
    exact_mod_cast Nat.log2_self_le (Nat.ne_of_gt h)
  · rw [← Nat.cast_one, ← Nat.cast_add, zpow_natCast]
    exact_mod_cast Nat.lt_log2_self

theorem exponentFor_fits {num den : Nat} (hn : 0 < num) (hd : 0 < den) :
    Fits (num / den) (double.exponentFor num den) := by
  have pos : (0 : ℚ) < den := by exact_mod_cast hd
  -- the quotient lies between two neighbouring powers of two
  obtain ⟨numLow, numHigh⟩ := cast_log2 hn
  obtain ⟨denLow, denHigh⟩ := cast_log2 hd
  have low : (2 : ℚ) ^ ((num.log2 : Int) - den.log2 - 1) < num / den := by
    rw [lt_div_iff₀ pos]
    calc (2 : ℚ) ^ ((num.log2 : Int) - den.log2 - 1) * den
        < 2 ^ ((num.log2 : Int) - den.log2 - 1) * 2 ^ ((den.log2 : Int) + 1) := by gcongr
      _ = 2 ^ (num.log2 : Int) := by
        rw [← zpow_add₀ (by norm_num)]
        congr 1
        omega
      _ ≤ num := numLow
  have high : (num / den : ℚ) < 2 ^ ((num.log2 : Int) - den.log2 + 1) := by
    rw [div_lt_iff₀ pos]
    calc (num : ℚ) < 2 ^ ((num.log2 : Int) + 1) := numHigh
      _ = 2 ^ ((num.log2 : Int) - den.log2 + 1) * 2 ^ (den.log2 : Int) := by
        rw [← zpow_add₀ (by norm_num)]
        congr 1
        omega
      _ ≤ 2 ^ ((num.log2 : Int) - den.log2 + 1) * den := by gcongr
  have split (g : Int) (hg : g = max ((num.log2 : Int) - den.log2 - 53) (-1074)) :
      Fits (num / den) (if (scaleDown num den g).1 / (scaleDown num den g).2 < pow2 53 then g
        else g + 1) := by
    have bits := scaleDown_lt num hd g (pow2 53)
    rw [cast_pow2] at bits
    split
    case isTrue h =>
      refine ⟨by omega, bits.1 h, ?_⟩
      rcases Int.lt_or_le (-1074) g with hl | hl
      · right
        have : g = (num.log2 : Int) - den.log2 - 53 := by omega
        calc (2 : ℚ) ^ 52 * 2 ^ g = 2 ^ ((num.log2 : Int) - den.log2 - 1) := by
              rw [← zpow_natCast, ← zpow_add₀ (by norm_num)]
              congr 1
              omega
          _ ≤ num / den := low.le
      · left
        omega
    case isFalse h =>
      have above : (2 : ℚ) ^ 53 * 2 ^ g ≤ num / den := not_lt.1 fun hlt => h (bits.2 hlt)
      refine ⟨by omega, ?_, .inr ?_⟩
      · calc (num / den : ℚ) < 2 ^ ((num.log2 : Int) - den.log2 + 1) := high
          _ ≤ 2 ^ (54 + g) := zpow_le_zpow_right₀ (by norm_num) (by omega)
          _ = 2 ^ 53 * 2 ^ (g + 1) := by
            rw [← zpow_natCast, ← zpow_add₀ (by norm_num)]
            congr 1
            omega
      · calc (2 : ℚ) ^ 52 * 2 ^ (g + 1) = 2 ^ 53 * 2 ^ g := by
              rw [zpow_add_one₀ (by norm_num)]
              ring
          _ ≤ (num / den : ℚ) := above
  unfold BinaryFormat.exponentFor
  simp only [if_neg (Nat.ne_of_gt hn)]
  exact split _ rfl

/-! ## The double of a quotient -/

/-- The bits of a magnitude: the fields of its exponent and of its mantissa add up. -/
theorem read_bits {b : Nat} {m : Magnitude} (hb : b < 2 ^ 63) (h : double.read b = .finite m) :
    -1074 ≤ m.exponent ∧ b = (m.exponent + 1074).toNat * 2 ^ 52 + m.mantissa ∧ m.mantissa < 2 ^ 53 ∧
      (m.exponent = -1074 ∨ 2 ^ 52 ≤ m.mantissa) ∧ b < 2047 * 2 ^ 52 := by
  have stored : b / 2 ^ 52 < 2048 := by omega
  have parts := Nat.div_add_mod b (2 ^ 52)
  have fraction := Nat.mod_lt b (show 2 ^ 52 > 0 by decide)
  unfold BinaryFormat.read at h
  simp only [double, show pow2 (53 - 1) = 2 ^ 52 from rfl] at h
  split at h
  · split at h <;> cases h
  · split at h
    · have hm := Reading.finite.inj h
      have mantissa : m.mantissa = b % 2 ^ 52 := by rw [← hm]
      have exponent : m.exponent = -1074 := by rw [← hm]
      omega
    · have hm := Reading.finite.inj h
      have mantissa : m.mantissa = 2 ^ 52 + b % 2 ^ 52 := by rw [← hm]
      have exponent : m.exponent = -1074 + (b / 2 ^ 52 : Nat) - 1 := by rw [← hm]
      omega

/-- A scaled quotient within half a unit of a number is rounded to it. -/
theorem roundDiv_scaleDown {num den k : Nat} (hd : 0 < den) {v : ℚ} (hv : (num / den : ℚ) = v)
    {e : Int}
    (low : (2 * k - 1) * (2 : ℚ) ^ e < 2 * v ∨ k % 2 = 0 ∧ (2 * k - 1) * (2 : ℚ) ^ e = 2 * v)
    (high : 2 * v < (2 * k + 1) * 2 ^ e ∨ k % 2 = 0 ∧ 2 * v = (2 * k + 1) * 2 ^ e) :
    roundDiv (scaleDown num den e).1 (scaleDown num den e).2 = k := by
  obtain ⟨hn, hs⟩ := scaleDown_value num den e
  have pos : (0 : ℚ) < den := by exact_mod_cast hd
  have scale : (0 : ℚ) < den * 2 ^ (-e).toNat := by positivity
  have num_eq : ((scaleDown num den e).1 : ℚ) = v * (den * 2 ^ (-e).toNat) := by
    rw [hn, ← hv]
    field_simp
  have den_eq : ((scaleDown num den e).2 : ℚ) = 2 ^ e * (den * 2 ^ (-e).toNat) := by
    rw [hs]
    ring
  generalize (den * 2 ^ (-e).toNat : ℚ) = t at *
  refine roundDiv_eq (scaleDown_pos hd num e) ?_ ?_
  · rcases low with low | ⟨even, low⟩
    · left
      have : ((2 * k - 1 : ℤ) * (scaleDown num den e).2 : ℚ) < 2 * (scaleDown num den e).1 := by
        rw [num_eq, den_eq]
        push_cast
        nlinarith
      exact_mod_cast this
    · refine .inr ⟨even, ?_⟩
      have : ((2 * k - 1 : ℤ) * (scaleDown num den e).2 : ℚ) = 2 * (scaleDown num den e).1 := by
        rw [num_eq, den_eq]
        push_cast
        linear_combination t * low
      exact_mod_cast this
  · rcases high with high | ⟨even, high⟩
    · left
      have : (2 * (scaleDown num den e).1 : ℚ) < (2 * k + 1) * (scaleDown num den e).2 := by
        rw [num_eq, den_eq]
        nlinarith
      exact_mod_cast this
    · refine .inr ⟨even, ?_⟩
      have : (2 * (scaleDown num den e).1 : ℚ) = (2 * k + 1) * (scaleDown num den e).2 := by
        rw [num_eq, den_eq]
        linear_combination t * high
      exact_mod_cast this

/-- The bits of a quotient whose exponent and rounded mantissa are known. -/
theorem round_eq {num den k : Nat} (hn : 0 < num) (hd : 0 < den) {e : Int} (he : Fits (num / den) e)
    (hk : roundDiv (scaleDown num den e).1 (scaleDown num den e).2 = k)
    (hb : (e + 1074).toNat * 2 ^ 52 + k < 2047 * 2 ^ 52) :
    double.round num den = (e + 1074).toNat * 2 ^ 52 + k := by
  unfold BinaryFormat.round
  rw [(exponentFor_fits hn hd).unique he]
  simp only [hk]
  exact Nat.min_eq_left (Nat.le_of_lt hb)

theorem interval_fst {m : Magnitude} (hm : 0 < m.mantissa) : ((interval m).1 : ℚ) =
    4 * m.mantissa - (if m.mantissa = 2 ^ 52 ∧ -1074 < m.exponent then 1 else 2) := by
  have small : (if m.mantissa = pow2 52 ∧ double.leastExponent < m.exponent then 1 else 2) ≤
      4 * m.mantissa := by split <;> omega
  unfold interval
  rw [Nat.cast_sub small]
  push_cast
  rfl

theorem interval_snd (m : Magnitude) : ((interval m).2 : ℚ) = 4 * m.mantissa + 2 := by
  unfold interval
  push_cast
  rfl

theorem zpow_quarter (e : Int) : (2 : ℚ) ^ (e - 2) = 2 ^ e / 4 := by
  rw [zpow_sub₀ (by norm_num)]
  norm_num

/-- Numbers in the interval of a magnitude that is not zero are positive. -/
theorem Magnitude.Near.pos {m : Magnitude} {v : ℚ} (h : m.Near v) (hm : 0 < m.mantissa) : 0 < v := by
  have one : (1 : ℚ) ≤ m.mantissa := by exact_mod_cast hm
  have unit : (0 : ℚ) < 2 ^ (m.exponent - 2) := by positivity
  have low : (0 : ℚ) < (interval m).1 := by
    rw [interval_fst hm]
    split <;> linarith
  rcases h.1 with h | ⟨-, h⟩ <;> nlinarith

/-- A quotient in the interval of a double is rounded to the double. -/
theorem round_of_near {b : Nat} {m : Magnitude} (hb : b < 2 ^ 63) (hr : double.read b = .finite m)
    (hm : 0 < m.mantissa) {num den : Nat} (hd : 0 < den) (h : m.Near (num / den)) :
    double.round num den = b := by
  obtain ⟨least, bits, short, normal, finite⟩ := read_bits hb hr
  have unit : (0 : ℚ) < 2 ^ m.exponent := by positivity
  have bound : (m.mantissa : ℚ) + 1 ≤ 2 ^ 53 := by exact_mod_cast short
  have some : 0 < num := by
    have := h.pos hm
    by_contra hn
    obtain rfl : num = 0 := by omega
    simp at this
  generalize hv : (num / den : ℚ) = v at h
  obtain ⟨low, high⟩ := h
  rw [zpow_quarter, interval_fst hm] at low
  rw [zpow_quarter, interval_snd] at high
  by_cases inside : m.exponent = -1074 ∨ 2 ^ 52 * (2 : ℚ) ^ m.exponent ≤ v
  · -- the quotient has the exponent of the double
    have fits : Fits v m.exponent := by
      refine ⟨least, ?_, inside⟩
      rcases high with high | ⟨-, high⟩ <;> nlinarith
    have mantissa := roundDiv_scaleDown (k := m.mantissa) hd hv (e := m.exponent) (by
        split at low
        · left
          rcases low with low | ⟨-, low⟩ <;> linarith
        · rcases low with low | ⟨even, low⟩
          · left
            linarith
          · exact .inr ⟨even, by linarith⟩) (by
        rcases high with high | ⟨even, high⟩
        · left
          linarith
        · exact .inr ⟨even, by linarith⟩)
    rw [round_eq some hd (hv ▸ fits) mantissa (by omega), bits]
  · -- the quotient is below the least mantissa, and is rounded up to it with the exponent before
    obtain ⟨above, below⟩ := not_or.1 inside
    rw [not_le] at below
    have normal : (2 : ℚ) ^ 52 ≤ m.mantissa := by exact_mod_cast normal.resolve_left above
    have half : (2 : ℚ) ^ (m.exponent - 1) = 2 ^ m.exponent / 2 := by
      rw [zpow_sub_one₀ (by norm_num)]
      ring
    have boundary : m.mantissa = 2 ^ 52 ∧ -1074 < m.exponent := by
      by_contra hc
      rw [if_neg hc] at low
      have : (m.mantissa : ℚ) < 2 ^ 52 + 1 := by
        rcases low with low | ⟨-, low⟩ <;> nlinarith
      have : m.mantissa < 2 ^ 52 + 1 := by exact_mod_cast this
      omega
    rw [if_pos boundary, boundary.1] at low
    push_cast at low
    have fits : Fits v (m.exponent - 1) := by
      refine ⟨by omega, ?_, .inr ?_⟩
      · rw [half]
        linarith
      · rw [half]
        rcases low with low | ⟨-, low⟩ <;> linarith
    have mantissa := roundDiv_scaleDown (k := 2 ^ 53) hd hv (e := m.exponent - 1) (by
        rw [half]
        push_cast
        rcases low with low | ⟨-, low⟩
        · left
          linarith
        · exact .inr ⟨by decide, by linarith⟩) (by
        rw [half]
        push_cast
        left
        linarith)
    rw [round_eq some hd (hv ▸ fits) mantissa (by omega), bits]
    omega

end LiveTemplate.Decimal
