/-
The values that templates read. Lists and maps have an identity besides their contents: two
values are the same collection exactly when they carry the same mark. Marks come from a supply
that never gives one out twice, and writing to a collection marks it afresh.
-/
import LiveTemplate.Decimal.Layout
import LiveTemplate.Decimal.Reader
import LiveTemplate.Text.Blank

namespace LiveTemplate

/-- The identity of a list or map. -/
abbrev Mark := Nat

/-- A value. Maps keep the order in which their keys were first added. -/
inductive Value where
  | null
  | bool (b : Bool)
  | int (i : Int64)
  | float (x : Float)
  | text (s : String)
  | list (mark : Mark) (items : List Value)
  | map (mark : Mark) (entries : List (String × Value))
deriving Inhabited

/-- The entries of a map, in order. -/
abbrev Entries := List (String × Value)

namespace Entries

/-- The value under a key. -/
def get? (entries : Entries) (key : String) : Option Value :=
  entries.lookup key

/-- Puts a value under a key: in place if the key is there, at the end if not. -/
def insert (key : String) (value : Value) : Entries → Entries
  | [] => [(key, value)]
  | (k, v) :: rest => if k = key then (key, value) :: rest else (k, v) :: insert key value rest

/-- The entries of a list of pairs; a repeated key keeps its first place and its last value. -/
def ofPairs (pairs : List (String × Value)) : Entries :=
  pairs.foldl (fun entries (k, v) => insert k v entries) []

/-- Puts an entry before the first one with a greater key. -/
def insertByKey (entry : String × Value) : Entries → Entries
  | [] => [entry]
  | e :: rest => if entry.1 < e.1 then entry :: e :: rest else e :: insertByKey entry rest

/-- The entries in ascending order of their keys. -/
def sorted (entries : Entries) : Entries :=
  entries.foldr insertByKey []

/-- The keys, in order. -/
def keys (entries : Entries) : List String :=
  entries.map (·.1)

end Entries

/-! ## Identity -/

/-- The supply of marks: every mark below `next` is taken. -/
structure Supply where
  next : Mark
deriving Repr, DecidableEq

/-- Computations that make lists and maps. -/
abbrev Fresh := StateM Supply

/-- A mark that no collection has yet. -/
def Fresh.mark : Fresh Mark :=
  fun supply => (supply.next, ⟨supply.next + 1⟩)

namespace Value

/-- A new list. -/
def newList (items : List Value) : Fresh Value := do
  return .list (← Fresh.mark) items

/-- A new map. -/
def newMap (entries : Entries) : Fresh Value := do
  return .map (← Fresh.mark) entries

/-- Whether both are the same list or the same map; other values have no identity. -/
def same : Value → Value → Bool
  | list a _, list b _ => a == b
  | map a _, map b _ => a == b
  | _, _ => false

/-! ## Views -/

def isNull : Value → Bool
  | null => true
  | _ => false

def text? : Value → Option String
  | text s => some s
  | _ => none

def list? : Value → Option (List Value)
  | list _ items => some items
  | _ => none

def map? : Value → Option Entries
  | map _ entries => some entries
  | _ => none

/-- The value under a key of a map. -/
def get? (v : Value) (key : String) : Option Value :=
  v.map?.bind (Entries.get? · key)

/-- The name of the kind of a value, as messages use it. -/
def kindName : Value → String
  | null => "null"
  | bool _ => "bool"
  | int _ => "integer"
  | float _ => "float"
  | text _ => "string"
  | list .. => "list"
  | map .. => "map"

/-- What the operator `typeof` gives. -/
def typeName : Value → String
  | null => "undefined"
  | bool _ => "boolean"
  | int _ | float _ => "number"
  | text _ => "string"
  | list .. | map .. => "object"

/-- Null, false, zero, not-a-number and the empty text are false; all else is true. -/
def truthy : Value → Bool
  | null => false
  | bool b => b
  | int i => i != 0
  | float x => !(x == 0.0 || x.isNaN)
  | text s => !s.isEmpty
  | list .. | map .. => true

/-! ## Numbers -/

/-- Not a number. -/
def nan : Float := 0.0 / 0.0

/-- The number a text reads as: zero if it is blank, and not-a-number if it is no numeral. -/
def numberOfText (s : String) : Float :=
  let cs := Text.trim s.toList
  if cs.isEmpty then 0.0 else (Decimal.parseDouble cs).getD nan

/-- The number that arithmetic takes a value for. -/
def toNumber : Value → Float
  | null => 0.0
  | bool b => if b then 1.0 else 0.0
  | int i => i.toFloat
  | float x => x
  | text s => numberOfText s
  | list .. | map .. => nan

/-- The value of an arithmetic result: an integer when it is whole and small enough, except that
negative zero stays a float. -/
def number (x : Float) : Value :=
  if Decimal.isWhole x && x.abs < 9.0e15 && !(x == 0.0 && Decimal.isNegative x) then
    .int x.toInt64
  else .float x

/-- The integer, or the nearest float if it does not fit 64 bits. -/
def ofInt (i : Int) : Value :=
  if Int64.minValue.toInt ≤ i ∧ i ≤ Int64.maxValue.toInt then .int (Int64.ofInt i)
  else .float (Decimal.ofQuotient (i < 0) i.natAbs 1)

/-- The text of a float. A whole number below 10^21 is written in full. -/
def floatText (x : Float) : String :=
  if Decimal.isWhole x && x.abs < 1e21 then Decimal.intText (Decimal.truncate x)
  else Decimal.positional.text x "NaN" "Infinity"

/-! ## Texts -/

mutual

/-- The text a value becomes where a text is wanted. -/
def display : Value → String
  | null => ""
  | bool b => if b then "true" else "false"
  | int i => Decimal.intText i.toInt
  | float x => floatText x
  | text s => s
  | list _ items => ",".intercalate (displayAll items)
  | map .. => "[object Object]"

def displayAll : List Value → List String
  | [] => []
  | v :: rest => display v :: displayAll rest

end

/-- The text of a value that can stand in a page; lists and maps cannot. -/
def pageText? : Value → Option String
  | list .. | map .. => none
  | v => some v.display

/-! ## Comparison -/

/-- The operator `===`: numbers by value, lists and maps by identity. -/
def strictEq : Value → Value → Bool
  | null, null => true
  | bool a, bool b => a == b
  | int a, int b => a == b
  | int a, float b => a.toFloat == b
  | float a, int b => a == b.toFloat
  | float a, float b => a == b
  | text a, text b => a == b
  | a, b => a.same b

/-- Whether a value is a list or a map. -/
def isCollection : Value → Bool
  | list .. | map .. => true
  | _ => false

/-- The operator `==`: null equals null only, and unlike scalars compare as numbers. -/
def looseEq (a b : Value) : Bool :=
  if a.isNull || b.isNull then a.isNull && b.isNull
  else if a.isCollection || b.isCollection then a.strictEq b
  else match a, b with
    | text s, text t => s == t
    | _, _ => a.toNumber == b.toNumber

mutual

/-- Equality of contents. Integers and floats differ, and maps compare without their order. -/
def equal : Value → Value → Bool
  | null, null => true
  | bool a, bool b => a == b
  | int a, int b => a == b
  | float a, float b => a == b
  | text a, text b => a == b
  | list _ a, list _ b => equalAll a b
  | map _ a, map _ b => a.length == b.length && equalEntries a b
  | _, _ => false

def equalAll : List Value → List Value → Bool
  | [], [] => true
  | a :: as, b :: bs => equal a b && equalAll as bs
  | _, _ => false

def equalEntries : List (String × Value) → Entries → Bool
  | [], _ => true
  | (k, v) :: rest, other =>
    (match other.get? k with
      | some w => equal v w
      | none => false) && equalEntries rest other

end

end Value

end LiveTemplate
