/-
How decimals are laid out. One record holds the decisions of a format: which numbers are written
without an exponent, whether a whole number keeps a point, and how an exponent is marked.
-/
import LiveTemplate.Decimal.Shortest

namespace LiveTemplate.Decimal

/-- The decimal digits of a natural number. -/
def natText (n : Nat) : String :=
  String.ofList (Nat.toDigits 10 n)

/-- The decimal text of an integer. -/
def intText (i : Int) : String :=
  if i < 0 then "-" ++ natText i.natAbs else natText i.natAbs

/-- The decisions of a format for finite numbers. -/
structure Layout where
  /-- Whether a number whose first digit has this weight is written without an exponent. -/
  positional : Int → Bool
  /-- Whether a whole number written without an exponent ends in `.0`. -/
  wholePoint : Bool
  /-- Whether an exponent that is not negative has a plus sign. -/
  plus : Bool
  /-- Which of two equally near decimals is taken. -/
  tie : Tie

/-- Splits the digits before the last `places` of them; zeros fill up the front. -/
def splitPlaces (digits : List Char) (places : Nat) : List Char × List Char :=
  let padded := List.replicate (places + 1 - digits.length) '0' ++ digits
  padded.splitAt (padded.length - places)

/-- The number without an exponent. -/
def Digits.plain (d : Digits) (wholePoint : Bool) : String :=
  let digits := Nat.toDigits 10 d.digits
  if 0 ≤ d.exponent then
    String.ofList (digits ++ List.replicate (if d.digits = 0 then 0 else d.exponent.toNat) '0')
      ++ (if wholePoint then ".0" else "")
  else
    let (whole, fraction) := splitPlaces digits (-d.exponent).toNat
    String.ofList (whole ++ '.' :: fraction)

/-- The weight of the first digit. -/
def Digits.weight (d : Digits) : Int :=
  ((Nat.toDigits 10 d.digits).length : Int) - 1 + d.exponent

/-- The number with one digit before the point and an exponent. -/
def Digits.scientific (d : Digits) (plus : Bool) : String :=
  let digits := Nat.toDigits 10 d.digits
  let lead := digits.take 1
  let fraction := digits.drop 1
  String.ofList (if fraction.isEmpty then lead else lead ++ '.' :: fraction) ++ "e"
    ++ (if plus && 0 ≤ d.weight then "+" else "") ++ intText d.weight

/-- The text of a magnitude in a format. -/
def Layout.write (layout : Layout) (d : Digits) : String :=
  if d.digits = 0 ∨ layout.positional d.weight then d.plain layout.wholePoint
  else d.scientific layout.plus

/-- The text of a finite double in a format, with its sign; the caller names the rest. -/
def Layout.text (layout : Layout) (x : Float) (nan infinite : String) : String :=
  match reading x with
  | .nan => nan
  | .infinite => (if isNegative x then "-" else "") ++ infinite
  | .finite m => (if isNegative x then "-" else "") ++ layout.write (shortest layout.tie m)

/-- Never an exponent and no idle point. -/
def positional : Layout := ⟨fun _ => true, false, false, .up⟩

/-- The number with exactly `places` digits after the point, rounded from its exact value. -/
def fixedText (x : Float) (places : Nat) : String :=
  match reading x with
  | .nan => "NaN"
  | .infinite => if isNegative x then "-inf" else "inf"
  | .finite m =>
    let scaled :=
      roundDiv (m.mantissa * pow2 m.exponent.toNat * pow10 places) (pow2 (-m.exponent).toNat)
    let (whole, fraction) := splitPlaces (Nat.toDigits 10 scaled) places
    (if isNegative x then "-" else "")
      ++ String.ofList (if places = 0 then whole else whole ++ '.' :: fraction)

end LiveTemplate.Decimal
