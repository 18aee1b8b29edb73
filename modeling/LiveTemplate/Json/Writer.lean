/-
Values as JSON text, compact or indented by two spaces. Keys keep their order, and numbers that
JSON cannot write become null.
-/
import LiveTemplate.Value.Basic

namespace LiveTemplate.Json

open Text

/-- Floats in JSON: no exponent from 0.00001 up to below 10^16, and whole numbers end in `.0`. -/
def floatLayout : Decimal.Layout := ⟨fun weight => -5 ≤ weight && weight ≤ 15, true, true, .even⟩

/-- A float, or null if it is not finite. -/
def floatText (x : Float) : String :=
  match Decimal.reading x with
  | .finite _ => floatLayout.text x "null" "null"
  | _ => "null"

/-- How one character appears in a JSON string. -/
def escapeChar (c : Char) : List Char :=
  if c == '"' || c == '\\' then ['\\', c]
  else if c == '\x08' then ['\\', 'b']
  else if c == '\x0c' then ['\\', 'f']
  else if c == '\n' then ['\\', 'n']
  else if c == '\r' then ['\\', 'r']
  else if c == '\t' then ['\\', 't']
  else if c.toNat < 0x20 then
    ['\\', 'u', '0', '0', Nat.digitChar (c.toNat / 16), Nat.digitChar (c.toNat % 16)]
  else [c]

/-- A JSON string. -/
def stringText (s : String) : String :=
  String.ofList ('"' :: s.toList.flatMap escapeChar ++ ['"'])

/-- A value that is neither a list nor a map. -/
def scalarText : Value → String
  | .bool b => if b then "true" else "false"
  | .int i => Decimal.intText i.toInt
  | .float x => floatText x
  | .text s => stringText s
  | _ => "null"

mutual

/-- The value on one line without blanks. -/
def compact : Value → String
  | .list _ items => "[" ++ ",".intercalate (compactItems items) ++ "]"
  | .map _ entries => "\x7b" ++ ",".intercalate (compactEntries entries) ++ "\x7d"
  | v => scalarText v

def compactItems : List Value → List String
  | [] => []
  | v :: rest => compact v :: compactItems rest

def compactEntries : List (String × Value) → List String
  | [] => []
  | (k, v) :: rest => (stringText k ++ ":" ++ compact v) :: compactEntries rest

end

/-- Encloses indented lines; brackets around nothing stay together. -/
def enclose (opening closing : String) (indent : String) (lines : List String) : String :=
  if lines.isEmpty then opening ++ closing
  else
    let inner := "\n" ++ indent ++ "  "
    opening ++ inner ++ ("," ++ inner).intercalate lines ++ "\n" ++ indent ++ closing

mutual

/-- The value over several lines, each level two spaces further in. -/
def pretty (indent : String) : Value → String
  | .list _ items => enclose "[" "]" indent (prettyItems (indent ++ "  ") items)
  | .map _ entries => enclose "\x7b" "\x7d" indent (prettyEntries (indent ++ "  ") entries)
  | v => scalarText v

def prettyItems (indent : String) : List Value → List String
  | [] => []
  | v :: rest => pretty indent v :: prettyItems indent rest

def prettyEntries (indent : String) : List (String × Value) → List String
  | [] => []
  | (k, v) :: rest => (stringText k ++ ": " ++ pretty indent v) :: prettyEntries indent rest

end

mutual

/-- The value that its JSON text stands for, as new collections: floats that are not finite
become null. -/
def normalize : Value → Fresh Value
  | .float x => return if x.isFinite then .float x else .null
  | .list _ items => do Value.newList (← normalizeItems items)
  | .map _ entries => do Value.newMap (← normalizeEntries entries)
  | v => return v

def normalizeItems : List Value → Fresh (List Value)
  | [] => return []
  | v :: rest => return (← normalize v) :: (← normalizeItems rest)

def normalizeEntries : List (String × Value) → Fresh Entries
  | [] => return []
  | (k, v) :: rest => return (k, ← normalize v) :: (← normalizeEntries rest)

end

end LiveTemplate.Json
