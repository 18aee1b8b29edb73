/-
Binary floating point read exactly. A double is taken apart into `mantissa * 2 ^ exponent`, and a
quotient of natural numbers is rounded to the nearest double, ties to the even mantissa. All of
it is arithmetic on natural numbers, so nothing is lost between the two directions.
-/

namespace LiveTemplate.Decimal

/-- The power of two with a given exponent. -/
def pow2 (k : Nat) : Nat := Nat.pow 2 k

/-- The power of ten with a given exponent. -/
def pow10 (k : Nat) : Nat := Nat.pow 10 k

/-- A binary format: bits of precision, least exponent and greatest stored exponent. -/
structure BinaryFormat where
  precision : Nat
  leastExponent : Int
  greatestStored : Nat

/-- The format of 64 bits. -/
def double : BinaryFormat := ⟨53, -1074, 2047⟩

/-- The format of 32 bits. -/
def single : BinaryFormat := ⟨24, -149, 255⟩

/-- The magnitude `mantissa * 2 ^ exponent`. -/
structure Magnitude where
  mantissa : Nat
  exponent : Int
deriving Repr, DecidableEq

/-- What a stored number is. -/
inductive Reading where
  | nan
  | infinite
  | finite (magnitude : Magnitude)
deriving Repr, DecidableEq

namespace BinaryFormat

/-- The stored fields of the largest magnitude pattern, which is infinity. -/
def infinity (format : BinaryFormat) : Nat :=
  format.greatestStored * pow2 (format.precision - 1)

/-- Reads the bits below the sign. -/
def read (format : BinaryFormat) (bits : Nat) : Reading :=
  let hidden := pow2 (format.precision - 1)
  let stored := bits / hidden
  let fraction := bits % hidden
  if stored = format.greatestStored then
    if fraction = 0 then .infinite else .nan
  else if stored = 0 then .finite ⟨fraction, format.leastExponent⟩
  else .finite ⟨hidden + fraction, format.leastExponent + stored - 1⟩

end BinaryFormat

/-- The quotient rounded to the nearest natural number, a tie to the even one. -/
def roundDiv (num den : Nat) : Nat :=
  let q := num / den
  let r := num % den
  if den < 2 * r ∨ (2 * r = den ∧ q % 2 = 1) then q + 1 else q

/-- `num / (den * 2 ^ e)` as a numerator and a denominator. -/
def scaleDown (num den : Nat) (e : Int) : Nat × Nat :=
  (num * pow2 (-e).toNat, den * pow2 e.toNat)

namespace BinaryFormat

/-- The exponent at which the quotient has as many bits as the format holds. -/
def exponentFor (format : BinaryFormat) (num den : Nat) : Int :=
  let guess := max ((num.log2 : Int) - den.log2 - format.precision) format.leastExponent
  let (n, d) := scaleDown num den guess
  if num = 0 then format.leastExponent
  else if n / d < pow2 format.precision then guess
  else guess + 1

/-- The bits below the sign of the number nearest to `num / den`. -/
def round (format : BinaryFormat) (num den : Nat) : Nat :=
  let e := format.exponentFor num den
  let (n, d) := scaleDown num den e
  let bits := (e - format.leastExponent).toNat * pow2 (format.precision - 1) + roundDiv n d
  min bits format.infinity

end BinaryFormat

/-! ## Doubles -/

/-- The double with the given sign and lower bits. -/
def ofMagnitudeBits (negative : Bool) (bits : Nat) : Float :=
  Float.ofBits (UInt64.ofNat (if negative then pow2 63 + bits else bits))

/-- The double nearest to a signed quotient. -/
def ofQuotient (negative : Bool) (num den : Nat) : Float :=
  ofMagnitudeBits negative (double.round num den)

/-- Whether the sign bit is set. -/
def isNegative (x : Float) : Bool :=
  pow2 63 ≤ x.toBits.toNat

/-- What a double is, its sign apart. -/
def reading (x : Float) : Reading :=
  double.read (x.toBits.toNat % pow2 63)

/-- The whole part of a magnitude. -/
def Magnitude.truncate (m : Magnitude) : Nat :=
  m.mantissa * pow2 m.exponent.toNat / pow2 (-m.exponent).toNat

/-- Whether a magnitude is a whole number. -/
def Magnitude.isWhole (m : Magnitude) : Bool :=
  m.mantissa * pow2 m.exponent.toNat % pow2 (-m.exponent).toNat == 0

/-- The whole part of a double, zero where there is none. -/
def truncate (x : Float) : Int :=
  match reading x with
  | .finite m => if isNegative x then -(m.truncate : Int) else m.truncate
  | _ => 0

/-- Whether a double is a whole number; infinities and NaN are not. -/
def isWhole (x : Float) : Bool :=
  match reading x with
  | .finite m => m.isWhole
  | _ => false

/-- The remainder of a division that rounds toward zero; its sign is that of the dividend. -/
def remainder (x y : Float) : Float :=
  match reading x, reading y with
  | .finite a, .finite b =>
    if b.mantissa = 0 then 0.0 / 0.0
    else
      let e := min a.exponent b.exponent
      let r := a.mantissa * pow2 (a.exponent - e).toNat % (b.mantissa * pow2 (b.exponent - e).toNat)
      ofQuotient (isNegative x) (r * pow2 e.toNat) (pow2 (-e).toNat)
  | .finite _, .infinite => x
  | _, _ => 0.0 / 0.0

end LiveTemplate.Decimal
