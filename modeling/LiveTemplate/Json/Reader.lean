/-
JSON text read into values. Whole numbers within 64 bits are integers; any other number is a
float, taken as its leading digits times or over a power of ten.
-/
import LiveTemplate.Value.Basic

namespace LiveTemplate.Json

open Text

/-- The blanks between the tokens of JSON. -/
def isSpace (c : Char) : Bool :=
  c == ' ' || c == '\t' || c == '\n' || c == '\r'

def skipSpace (cs : List Char) : List Char :=
  cs.dropWhile isSpace

/-- Four hexadecimal digits and what follows. -/
def readHex4 : List Char → Option (Nat × List Char)
  | a :: b :: c :: d :: rest => (Decimal.natOfDigits 16 [a, b, c, d]).map (·, rest)
  | _ => none

/-- The character after the backslash of a short escape. -/
def shortEscape (c : Char) : Option Char :=
  if c == '"' || c == '\\' || c == '/' then some c
  else if c == 'b' then some '\x08'
  else if c == 'f' then some '\x0c'
  else if c == 'n' then some '\n'
  else if c == 'r' then some '\r'
  else if c == 't' then some '\t'
  else none

/-- An escape by code, of which a surrogate pair is two. -/
def readUnicode (cs : List Char) : Option (Char × List Char) := do
  let (high, rest) ← readHex4 cs
  if 0xD800 ≤ high ∧ high < 0xDC00 then
    match rest with
    | '\\' :: 'u' :: more =>
      let (low, rest) ← readHex4 more
      if 0xDC00 ≤ low ∧ low < 0xE000 then
        some (Char.ofNat (0x10000 + (high - 0xD800) * 0x400 + (low - 0xDC00)), rest)
      else none
    | _ => none
  else if 0xDC00 ≤ high ∧ high < 0xE000 then none
  else some (Char.ofNat high, rest)

/-- The rest of a string after its opening quote, with at most `fuel` characters. -/
def readString : Nat → List Char → Option (List Char × List Char)
  | 0, _ => none
  | _ + 1, [] => none
  | fuel + 1, '\\' :: 'u' :: rest => do
    let (c, rest) ← readUnicode rest
    let (text, rest) ← readString fuel rest
    some (c :: text, rest)
  | fuel + 1, c :: rest =>
    if c == '"' then some ([], rest)
    else if c == '\\' then
      match rest with
      | [] => none
      | e :: rest => do
        let c ← shortEscape e
        let (text, rest) ← readString fuel rest
        some (c :: text, rest)
    else if c.toNat < 0x20 then none
    else do
      let (text, rest) ← readString fuel rest
      some (c :: text, rest)

/-! ## Numbers -/

/-- The digits that fit a word of 64 bits, and how many were left over. -/
def leading (digits : List Char) (n : Nat) : Nat × Nat :=
  match digits with
  | [] => (n, 0)
  | c :: rest =>
    let next := n * 10 + (c.toNat - 48)
    if next < Decimal.pow2 64 then leading rest next else (n, (c :: rest).length)

/-- Multiplies or divides by a power of ten, in steps of at most 308; none if it overflows. -/
def scale : Nat → Float → Int → Option Float
  | 0, x, _ => some x
  | steps + 1, x, e =>
    if e.natAbs ≤ 308 then
      let power := Decimal.ofQuotient false (Decimal.pow10 e.natAbs) 1
      let y := if 0 ≤ e then x * power else x / power
      if y.isFinite then some y else none
    else if x == 0.0 then some x
    else if 0 ≤ e then none
    else scale steps (x / 1e308) (e + 308)

/-- A number and what follows. -/
def readNumber (cs : List Char) : Option (Value × List Char) := do
  let (negative, cs) := match cs with
    | '-' :: rest => (true, rest)
    | cs => (false, cs)
  let whole := cs.takeWhile isAsciiDigit
  let rest := cs.dropWhile isAsciiDigit
  if whole.isEmpty || (1 < whole.length && whole.head? == some '0') then none
  let (fraction, rest) ← match rest with
    | '.' :: more =>
      if (more.takeWhile isAsciiDigit).isEmpty then none
      else some (some (more.takeWhile isAsciiDigit), more.dropWhile isAsciiDigit)
    | rest => some (none, rest)
  let (exponent, rest) ← match rest with
    | c :: more =>
      if c == 'e' || c == 'E' then
        let (minus, digits) := Decimal.takeSign more
        let digits' := digits.takeWhile isAsciiDigit
        if digits'.isEmpty then none
        else
          let n : Int := Decimal.valueOf digits'
          some (some (if minus then -n else n), digits.dropWhile isAsciiDigit)
      else some (none, rest)
    | [] => some (none, rest)
  let n := Decimal.valueOf whole
  let signed : Int := if negative then -(n : Int) else n
  if fraction.isNone && exponent.isNone && n < Decimal.pow2 64 then
    if negative && (n == 0 || signed < Int64.minValue.toInt) then
      some (.float (Decimal.ofQuotient true n 1), rest)
    else some (Value.ofInt signed, rest)
  else
    let places := fraction.getD []
    let (digits, extra) := leading whole 0
    let (digits, dropped) := if extra = 0 then leading places digits else (digits, places.length)
    let used : Int := places.length - dropped
    let e := exponent.getD 0 + extra - used
    let x ← scale (e.natAbs + 1) (Decimal.ofQuotient false digits 1) e
    some (.float (if negative then -x else x), rest)

/-! ## Values -/

/-- Drops a word from the front. -/
def readWord (word : String) (cs : List Char) : Option (List Char) :=
  if word.toList.isPrefixOf cs then some (cs.drop word.length) else none

mutual

/-- A value and what follows, nested at most `fuel` deep and wide. -/
def readValue : Nat → List Char → OptionT Fresh (Value × List Char)
  | 0, _ => failure
  | fuel + 1, cs =>
    match skipSpace cs with
    | '[' :: rest =>
      match skipSpace rest with
      | ']' :: rest => do return (← Value.newList [], rest)
      | rest => do
        let (items, rest) ← readItems fuel rest
        return (← Value.newList items, rest)
    | '{' :: rest =>
      match skipSpace rest with
      | '}' :: rest => do return (← Value.newMap [], rest)
      | rest => do
        let (entries, rest) ← readEntries fuel rest
        return (← Value.newMap (Entries.ofPairs entries), rest)
    | '"' :: rest =>
      match readString (rest.length + 1) rest with
      | some (text, rest) => return (.text (String.ofList text), rest)
      | none => failure
    | rest =>
      match readWord "null" rest, readWord "true" rest, readWord "false" rest with
      | some rest, _, _ => return (.null, rest)
      | _, some rest, _ => return (.bool true, rest)
      | _, _, some rest => return (.bool false, rest)
      | _, _, _ => match readNumber rest with
        | some (v, rest) => return (v, rest)
        | none => failure

/-- The items of a list up to its bracket. -/
def readItems : Nat → List Char → OptionT Fresh (List Value × List Char)
  | 0, _ => failure
  | fuel + 1, cs => do
    let (v, rest) ← readValue fuel cs
    match skipSpace rest with
    | ',' :: rest => do
      let (vs, rest) ← readItems fuel rest
      return (v :: vs, rest)
    | ']' :: rest => return ([v], rest)
    | _ => failure

/-- The entries of a map up to its brace. -/
def readEntries : Nat → List Char → OptionT Fresh (List (String × Value) × List Char)
  | 0, _ => failure
  | fuel + 1, cs =>
    match skipSpace cs with
    | '"' :: rest =>
      match readString (rest.length + 1) rest with
      | none => failure
      | some (key, rest) =>
        match skipSpace rest with
        | ':' :: rest => do
          let (v, rest) ← readValue fuel rest
          match skipSpace rest with
          | ',' :: rest => do
            let (more, rest) ← readEntries fuel rest
            return ((String.ofList key, v) :: more, rest)
          | '}' :: rest => return ([(String.ofList key, v)], rest)
          | _ => failure
        | _ => failure
    | _ => failure

end

/-- Reads a whole text as one value. -/
def parse? (text : String) : Fresh (Option Value) := do
  match ← (readValue (2 * text.length + 2) text.toList).run with
  | some (v, rest) => return if (skipSpace rest).isEmpty then some v else none
  | none => return none

end LiveTemplate.Json
