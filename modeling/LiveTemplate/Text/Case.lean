/-
Upper and lower case of texts. One character may become several, and a capital sigma becomes the
final form at the end of a word.
-/
import LiveTemplate.Text.CaseTable

namespace LiveTemplate.Text

/-- The image of a code point under the first run that holds it. -/
def caseShift (runs : List CaseRun) (n : Nat) : Nat :=
  match runs.find? fun r => r.first ≤ n && n ≤ r.last && (n - r.first) % r.step == 0 with
  | some r => (n + r.shift).toNat
  | none => n

/-- The upper case of one character. -/
def upperChar (c : Char) : List Char :=
  if c.toNat < 0x80 then [c.toUpper]
  else match upperExpansions.lookup c.toNat with
    | some codes => codes.map Char.ofNat
    | none => [Char.ofNat (caseShift upperRuns c.toNat)]

/-- The lower case of one character, wherever it stands. -/
def lowerChar (c : Char) : List Char :=
  if c.toNat < 0x80 then [c.toLower]
  else if c == 'İ' then ['i', '\u0307']
  else [Char.ofNat (caseShift lowerRuns c.toNat)]

/-- Whether the nearest character that matters for casing is a cased letter. -/
def meetsCased : List Char → Bool
  | [] => false
  | c :: rest =>
    if caseIgnorableRanges.has c then meetsCased rest else casedRanges.has c

/-- A sigma is final after a letter and not before one; `before` is read from the sigma back. -/
def isFinalSigma (before after : List Char) : Bool :=
  meetsCased before && !meetsCased after

/-- The lower case of a text whose earlier characters, last first, are `before`. -/
def lowerFrom (before : List Char) : List Char → List Char
  | [] => []
  | c :: rest =>
    (if c == 'Σ' then [if isFinalSigma before rest then 'ς' else 'σ'] else lowerChar c)
      ++ lowerFrom (c :: before) rest

/-- The text in upper case. -/
def upper (cs : List Char) : List Char :=
  cs.flatMap upperChar

/-- The text in lower case. -/
def lower (cs : List Char) : List Char :=
  lowerFrom [] cs

end LiveTemplate.Text
