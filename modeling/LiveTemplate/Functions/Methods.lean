/-
Properties and methods of values.
-/
import LiveTemplate.Functions.Basic
import LiveTemplate.Text.Case
import LiveTemplate.Text.Search

namespace LiveTemplate.Value

open Text

/-- A property that a value has by its kind: the length of texts and lists. -/
def property? (v : Value) (name : String) : Option Value :=
  match v, name with
  | .text s, "length" => some (.int (Int64.ofNat s.length))
  | .list _ items, "length" => some (.int (Int64.ofNat items.length))
  | _, _ => none

/-- The position that an argument of `slice` asks for; a negative one counts from the end. -/
def slicePosition (length default : Nat) (v : Value) : Nat :=
  if v.isNull then default
  else
    let x := v.toNumber
    if x.isNaN then 0
    else match Decimal.reading x with
      | .finite _ =>
        let n := Decimal.truncate x
        if x < 0.0 then length - n.natAbs else min n.natAbs length
      | _ => if x < 0.0 then 0 else length

/-- The part of a list that the arguments of `slice` ask for. -/
def sliceList {α : Type} (items : List α) (args : List Value) : List α :=
  let start := slicePosition items.length 0 (argument args 0)
  let stop := slicePosition items.length items.length (argument args 1)
  (items.take stop).drop start

/-- A position, or minus one. -/
def positionValue (position : Option Nat) : Value :=
  match position with
  | some i => .int (Int64.ofNat i)
  | none => .int (-1)

/-- The text with the first occurrence of a pattern replaced. -/
def replaceFirst (cs pattern new : List Char) : List Char :=
  match splitAt? pattern cs with
  | some (before, after) => before ++ new ++ after
  | none => cs

/-- The pieces of a text: the whole of it without a separator, its characters with an empty one. -/
def splitText (s : String) (separator : Value) : List Value :=
  if separator.isNull then [.text s]
  else
    let pattern := separator.display.toList
    let cs := s.toList
    let pieces := if pattern.isEmpty then cs.map ([·]) else splitOnText pattern cs.length cs
    pieces.map fun p => .text (String.ofList p)

/-- The methods of texts. -/
def textMethod (s : String) (name : String) (args : List Value) : Option (Fresh Value) :=
  let cs := s.toList
  let other := (argument args 0).display.toList
  let text (cs : List Char) : Option (Fresh Value) := some (return .text (String.ofList cs))
  match name with
  | "toUpperCase" => text (upper cs)
  | "toLowerCase" => text (lower cs)
  | "trim" => text (trim cs)
  | "includes" => some (return .bool (splitAt? other cs).isSome)
  | "startsWith" => some (return .bool (other.isPrefixOf cs))
  | "endsWith" => some (return .bool (other.isSuffixOf cs))
  | "indexOf" => some (return positionValue ((splitAt? other cs).map (·.1.length)))
  | "split" => some (newList (splitText s (argument args 0)))
  | "slice" => text (sliceList cs args)
  | "replace" => text (replaceFirst cs other (argument args 1).display.toList)
  | _ => none

/-- The methods of lists. -/
def listMethod (items : List Value) (name : String) (args : List Value) : Option (Fresh Value) :=
  let wanted := argument args 0
  match name with
  | "includes" => some (return .bool (items.any (·.strictEq wanted)))
  | "indexOf" => some (return positionValue (items.findIdx? (·.strictEq wanted)))
  | "join" =>
    let separator := if wanted.isNull then "," else wanted.display
    some (return .text (separator.intercalate (items.map display)))
  | "slice" => some (newList (sliceList items args))
  | _ => none

/-- A number with a fixed count of digits after the point, at most a hundred. -/
def toFixed (v : Value) (args : List Value) : String :=
  let x := v.toNumber
  let digits := (argument args 0).toNumber
  let places := if digits.isNaN then 0
    else if digits < 0.0 then 0
    else if digits > 100.0 then 100
    else (Decimal.truncate digits).toNat
  if x.isFinite then Decimal.fixedText x places else floatText x

/-- Calls a method of a value. -/
def callMethod (v : Value) (name : String) (args : List Value) : ExceptT Error Fresh Value :=
  let special := match v with
    | .text s => textMethod s name args
    | .list _ items => listMethod items name args
    | .int _ | .float _ => if name = "toFixed" then some (return .text (v.toFixed args)) else none
    | _ => none
  match special with
  | some make => (make : Fresh Value)
  | none =>
    if name = "toString" then return .text v.display
    else throw (.bare (.unknownValueMethod name v.kindName))

end LiveTemplate.Value
