/-
The inspection text of a value: its constructor around its contents.
-/
import LiveTemplate.Text.Quoted
import LiveTemplate.Value.Basic

namespace LiveTemplate

/-- Floats in inspection texts: no exponent from 0.0001 up to below 10^16. -/
def inspectionLayout : Decimal.Layout :=
  ⟨fun weight => -4 ≤ weight && weight ≤ 15, true, false, .up⟩

namespace Value

mutual

/-- The constructor of a value around its contents. -/
def inspect : Value → String
  | null => "None"
  | bool b => if b then "Bool(true)" else "Bool(false)"
  | int i => "Integer(" ++ Decimal.intText i.toInt ++ ")"
  | float x => "Float(" ++ inspectionLayout.text x "NaN" "inf" ++ ")"
  | text s => "String(" ++ Text.quoted s ++ ")"
  | list _ items => "List([" ++ ", ".intercalate (inspectItems items) ++ "])"
  | map _ entries => "Map(\x7b" ++ ", ".intercalate (inspectEntries entries) ++ "\x7d)"

def inspectItems : List Value → List String
  | [] => []
  | v :: rest => inspect v :: inspectItems rest

def inspectEntries : List (String × Value) → List String
  | [] => []
  | (k, v) :: rest => (Text.quoted k ++ ": " ++ inspect v) :: inspectEntries rest

end

end Value

end LiveTemplate
