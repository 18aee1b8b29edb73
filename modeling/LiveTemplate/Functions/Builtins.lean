/-
The functions that every engine knows from the start.
-/
import LiveTemplate.Functions.Basic
import LiveTemplate.Json.Writer

namespace LiveTemplate.Builtin

open Text

/-- A function that needs no new collections and never fails. -/
def plain (f : List Value → Value) : Function := fun args => return f args

/-- A function that makes a value. -/
def making (f : List Value → Fresh Value) : Function := fun args => (f args : Fresh Value)

/-! ## Numbers -/

/-- Whether a character is a digit of a base. -/
def isDigitOf (base : Nat) (c : Char) : Bool :=
  ((Decimal.digitValue c).map fun d => decide (d < base)).getD false

/-- The base that an argument asks for: ten if it is not given, zero or no number. -/
def baseOf (v : Value) : Int :=
  let x := v.toNumber
  if x.isNaN || x == 0.0 then 10
  else match Decimal.reading x with
    | .finite _ => Decimal.truncate x
    | _ => 0

/-- The integer at the start of a text, in a base from two to thirty-six. A hexadecimal mark is
read where the base is sixteen or not given. What does not fit is not a number. -/
def parseInt (args : List Value) : Value :=
  let cs := trimStart (argument args 0).display.toList
  let (negative, cs) := Decimal.takeSign cs
  let base := baseOf (argument args 1)
  if base < 2 ∨ 36 < base then .float Value.nan
  else
    let (base, cs) := match cs with
      | '0' :: 'x' :: rest => if base = 16 ∨ args.length < 2 then (16, rest) else (base, cs)
      | '0' :: 'X' :: rest => if base = 16 ∨ args.length < 2 then (16, rest) else (base, cs)
      | cs => (base, cs)
    match Decimal.natOfDigits base.toNat (cs.takeWhile (isDigitOf base.toNat)) with
    | some n =>
      if n < Decimal.pow2 63 then .int (Int64.ofInt (if negative then -(n : Int) else n))
      else .float Value.nan
    | none => .float Value.nan

/-- A character that can stand in a decimal numeral. -/
def isNumeralChar (c : Char) : Bool :=
  isAsciiDigit c || c == '.' || c == 'e' || c == 'E' || c == '+' || c == '-'

/-- The number at the start of a text: the longest piece that is a numeral. -/
def parseFloat (args : List Value) : Value :=
  let cs := trimStart (argument args 0).display.toList
  if "Infinity".toList.isPrefixOf cs || "+Infinity".toList.isPrefixOf cs then .float (1.0 / 0.0)
  else if "-Infinity".toList.isPrefixOf cs then .float (-1.0 / 0.0)
  else
    let run := cs.takeWhile isNumeralChar
    let best := (List.range (run.length + 1)).reverse.findSome? fun n =>
      Decimal.parseDouble (run.take n)
    Value.number (best.getD Value.nan)

/-- Combines numbers from the left; one that is not a number decides the result. -/
def foldNumbers (f : Float → Float → Float) (start : Float) (args : List Value) : Value :=
  let numbers := args.map Value.toNumber
  if numbers.any Float.isNaN then .float Value.nan else Value.number (numbers.foldl f start)

/-- The larger number, the later one of equals. -/
def larger (a b : Float) : Float := if a > b then a else b

/-- The smaller number, the later one of equals. -/
def smaller (a b : Float) : Float := if a < b then a else b

/-- The nearest whole number, the larger one of two. -/
def roundHalfUp (x : Float) : Float := (x + 0.5).floor

/-- Applies a function to the first argument as a number. -/
def onNumber (f : Float → Float) (args : List Value) : Value :=
  Value.number (f (argument args 0).toNumber)

/-! ## Texts -/

/-- A byte that needs no percent sign in a part of an address. -/
def isUnreserved (c : Char) : Bool :=
  isAsciiLetter c || isAsciiDigit c || "-_.!~*'()".toList.contains c

def upperHex (n : Nat) : Char := (Nat.digitChar n).toUpper

/-- Writes every byte but the unreserved ones as a percent sign and two digits. -/
def encodeComponent (args : List Value) : Value :=
  let bytes := (argument args 0).display.toUTF8.toList
  .text (String.ofList (bytes.flatMap fun b =>
    let c := Char.ofNat b.toNat
    if isUnreserved c then [c] else ['%', upperHex (b.toNat / 16), upperHex (b.toNat % 16)]))

/-- The JSON text of a value, over several lines if the third argument is true. -/
def stringify (args : List Value) : Value :=
  let v := argument args 0
  .text (if (argument args 2).truthy then Json.pretty "" v else Json.compact v)

/-! ## Collections -/

/-- The keys and values of a list or map, in order. -/
def entriesOf (name : String) : Value → Except Error (List (String × Value))
  | .map _ entries => .ok entries
  | .list _ items => .ok (items.zipIdx.map fun (v, i) => (Decimal.natText i, v))
  | v => .error (.bare (.notAnObject name v.kindName))

def keys : Function := fun args => do
  let entries ← (entriesOf "Object.keys" (argument args 0) : Except Error _)
  Value.newList (entries.map fun e => .text e.1)

/-- The values of a map; a list is its own. -/
def values : Function := fun args => do
  match argument args 0 with
  | .list mark items => return .list mark items
  | v =>
    let entries ← (entriesOf "Object.values" v : Except Error _)
    Value.newList (entries.map (·.2))

def entries : Function := fun args => do
  let entries ← (entriesOf "Object.entries" (argument args 0) : Except Error _)
  let pairs ← entries.mapM fun e => (Value.newList [.text e.1, e.2] : Fresh Value)
  Value.newList pairs

def isList : Value → Bool
  | .list .. => true
  | _ => false

end LiveTemplate.Builtin

namespace LiveTemplate

open Builtin

/-- The built-in functions by name. -/
def builtinList : List (String × Function) :=
  [("Array.isArray", plain fun args => .bool (isList (argument args 0))),
    ("Boolean", plain fun args => .bool (argument args 0).truthy),
    ("JSON.stringify", plain stringify),
    ("Math.abs", plain (onNumber Float.abs)),
    ("Math.ceil", plain (onNumber Float.ceil)),
    ("Math.floor", plain (onNumber Float.floor)),
    ("Math.max", plain (foldNumbers larger (-1.0 / 0.0))),
    ("Math.min", plain (foldNumbers smaller (1.0 / 0.0))),
    ("Math.round", plain (onNumber roundHalfUp)),
    ("Number", plain (onNumber id)),
    ("Object.entries", Builtin.entries),
    ("Object.keys", keys),
    ("Object.values", values),
    ("String", plain fun args => .text (argument args 0).display),
    ("encodeURIComponent", plain encodeComponent),
    ("isNaN", plain fun args => .bool (argument args 0).toNumber.isNaN),
    ("parseFloat", plain parseFloat),
    ("parseInt", plain parseInt)]

/-- The built-in functions. -/
def builtins : Functions :=
  builtinList.foldl (fun functions (name, f) => functions.insert name f) .empty

end LiveTemplate
