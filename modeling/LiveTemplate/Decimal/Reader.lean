/-
Reading decimal numerals: an optional sign, then digits with an optional point and exponent, or
one of the words for infinity and not-a-number. The value is rounded correctly.
-/
import LiveTemplate.Decimal.Binary
import LiveTemplate.Text.Identifier

namespace LiveTemplate.Decimal

open LiveTemplate.Text

/-- What a numeral says, its sign apart: `digits * 10 ^ exponent`, infinity or not-a-number. -/
inductive Numeral where
  | nan
  | infinite
  | decimal (digits : Nat) (exponent : Int)
deriving Repr, DecidableEq

/-- The value of a digit in bases up to thirty-six. -/
def digitValue (c : Char) : Option Nat :=
  if isAsciiDigit c then some (c.toNat - 48)
  else if 'a' ≤ c ∧ c ≤ 'z' then some (c.toNat - 87)
  else if 'A' ≤ c ∧ c ≤ 'Z' then some (c.toNat - 55)
  else none

/-- The number that digits of a base write; none if there is no digit or a foreign one. -/
def natOfDigits (base : Nat) (digits : List Char) : Option Nat :=
  if digits.isEmpty then none
  else digits.foldlM (fun n c => (digitValue c).bind fun d =>
    if d < base then some (n * base + d) else none) 0

/-- The number that decimal digits write. -/
def valueOf (digits : List Char) : Nat :=
  digits.foldl (fun n c => n * 10 + (c.toNat - 48)) 0

/-- Takes an optional sign off the front; true for a minus. -/
def takeSign : List Char → Bool × List Char
  | '-' :: rest => (true, rest)
  | '+' :: rest => (false, rest)
  | cs => (false, cs)

/-- The exponent after the digits: nothing, or a mark, an optional sign and digits to the end. -/
def readExponent : List Char → Option Int
  | [] => some 0
  | c :: rest =>
    if c == 'e' || c == 'E' then
      let (negative, digits) := takeSign rest
      if digits.isEmpty || !digits.all isAsciiDigit then none
      else some (if negative then -(valueOf digits : Int) else valueOf digits)
    else none

/-- Reads an unsigned decimal. -/
def readDecimal (cs : List Char) : Option Numeral :=
  let whole := cs.takeWhile isAsciiDigit
  let (fraction, tail) := match cs.dropWhile isAsciiDigit with
    | '.' :: rest => (rest.takeWhile isAsciiDigit, rest.dropWhile isAsciiDigit)
    | rest => ([], rest)
  if whole.isEmpty && fraction.isEmpty then none
  else (readExponent tail).map fun e =>
    .decimal (valueOf (whole ++ fraction)) (e - fraction.length)

/-- Reads a numeral with its sign; true for a minus. -/
def readNumeral (cs : List Char) : Option (Bool × Numeral) :=
  let (negative, body) := takeSign cs
  let word := String.ofList (body.map Char.toLower)
  if word = "inf" ∨ word = "infinity" then some (negative, .infinite)
  else if word = "nan" then some (negative, .nan)
  else (readDecimal body).map fun n => (negative, n)

/-- The bits below the sign of the number nearest to a numeral. Numerals far outside the range of
every format are settled by their weight alone. -/
def Numeral.bits (format : BinaryFormat) : Numeral → Nat
  | .nan => format.infinity + pow2 (format.precision - 2)
  | .infinite => format.infinity
  | .decimal digits exponent =>
    let weight := ((Nat.toDigits 10 digits).length : Int) + exponent
    if digits = 0 ∨ weight < -400 then 0
    else if 400 < weight then format.infinity
    else format.round (digits * pow10 exponent.toNat) (pow10 (-exponent).toNat)

/-- The double that a numeral writes. -/
def parseDouble (cs : List Char) : Option Float :=
  (readNumeral cs).map fun (negative, n) => ofMagnitudeBits negative (n.bits double)

/-- The number of single precision that a numeral writes, as a double. -/
def parseSingle (cs : List Char) : Option Float :=
  (readNumeral cs).map fun (negative, n) =>
    match single.read (n.bits single) with
    | .nan => 0.0 / 0.0
    | .infinite => ofMagnitudeBits negative double.infinity
    | .finite m =>
      ofQuotient negative (m.mantissa * pow2 m.exponent.toNat) (pow2 (-m.exponent).toNat)

/-- Reads an integer: an optional sign and decimal digits. -/
def parseInt (cs : List Char) : Option Int :=
  let (negative, digits) := takeSign cs
  (natOfDigits 10 digits).map fun n => if negative then -(n : Int) else n

end LiveTemplate.Decimal
