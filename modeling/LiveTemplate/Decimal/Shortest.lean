/-
The shortest decimal of a double: the fewest digits that read back to it, and among those the
nearest. The interval of numbers that round to the double is compared with decimal grids in exact
arithmetic, coarsest grid first; seventeen digits always suffice.
-/
import LiveTemplate.Decimal.Binary

namespace LiveTemplate.Decimal

/-- The magnitude `digits * 10 ^ exponent`. -/
structure Digits where
  digits : Nat
  exponent : Int
deriving Repr, DecidableEq

/-- Compares `a * 10 ^ p` with `b * 2 ^ q`. -/
def compareScaled (a : Nat) (p : Int) (b : Nat) (q : Int) : Ordering :=
  compare (a * pow10 p.toNat * pow2 (-q).toNat) (b * pow2 q.toNat * pow10 (-p).toNat)

/-- The ends of the interval that rounds to a double, in quarters of its last bit. -/
def interval (m : Magnitude) : Nat × Nat :=
  let boundary := m.mantissa = pow2 52 ∧ double.leastExponent < m.exponent
  (4 * m.mantissa - (if boundary then 1 else 2), 4 * m.mantissa + 2)

/-- Whether `a * 10 ^ p` rounds to the double; the ends count when the mantissa is even. -/
def readsBack (m : Magnitude) (a : Nat) (p : Int) : Bool :=
  let ends := m.mantissa % 2 = 0
  let low := compareScaled a p (interval m).1 (m.exponent - 2)
  let high := compareScaled a p (interval m).2 (m.exponent - 2)
  (low == .gt || (ends && low == .eq)) && (high == .lt || (ends && high == .eq))

/-- The largest multiple of `10 ^ p` not above the double, divided by `10 ^ p`. -/
def gridFloor (m : Magnitude) (p : Int) : Nat :=
  m.mantissa * pow2 m.exponent.toNat * pow10 (-p).toNat / (pow10 p.toNat * pow2 (-m.exponent).toNat)

/-- Where a double goes that lies in the middle between two shortest decimals. -/
inductive Tie where
  | up
  | even
deriving Repr, DecidableEq

/-- Whether `a * 10 ^ p` rather than `(a + 1) * 10 ^ p` stands for the double between them. -/
def choosesLower (tie : Tie) (m : Magnitude) (a : Nat) (p : Int) : Bool :=
  match compareScaled (2 * a + 1) p (2 * m.mantissa) m.exponent with
  | .gt => true
  | .lt => false
  | .eq => tie == .even && a % 2 == 0

/-- The multiple of `10 ^ p` that reads back, if a neighbour of the double does. -/
def onGrid (tie : Tie) (m : Magnitude) (p : Int) : Option Nat :=
  let a := gridFloor m p
  match readsBack m a p, readsBack m (a + 1) p with
  | true, true => some (if choosesLower tie m a p then a else a + 1)
  | true, false => some a
  | false, true => some (a + 1)
  | false, false => none

/-- The first of `count` grids, each ten times finer than the last, that has a number to show. -/
def firstGrid (tie : Tie) (m : Magnitude) (p : Int) : Nat → Digits
  | 0 => ⟨gridFloor m p, p⟩
  | count + 1 =>
    match onGrid tie m p with
    | some a => ⟨a, p⟩
    | none => firstGrid tie m (p - 1) count

/-- Moves up to `count` zeros at the end of the digits into the exponent. -/
def Digits.strip (d : Digits) : Nat → Digits
  | 0 => d
  | count + 1 => if d.digits % 10 = 0 then Digits.strip ⟨d.digits / 10, d.exponent + 1⟩ count else d

/-- An exponent of ten not below that of the magnitude, at most one too large. -/
def decimalExponent (m : Magnitude) : Int :=
  ((m.mantissa.log2 : Int) + m.exponent + 1) * 30103 / 100000 + 1

/-- The shortest digits that read back to the double. -/
def shortest (tie : Tie) (m : Magnitude) : Digits :=
  if m.mantissa = 0 then ⟨0, 0⟩
  else (firstGrid tie m (decimalExponent m) 19).strip 20

end LiveTemplate.Decimal
