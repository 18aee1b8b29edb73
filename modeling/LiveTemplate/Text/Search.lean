/-
Occurrences of one text in another.
-/

namespace LiveTemplate.Text

/-- Splits a text at the first occurrence of a pattern into what stands before and after it. -/
def splitAt? (pattern : List Char) : List Char → Option (List Char × List Char)
  | [] => if pattern.isEmpty then some ([], []) else none
  | c :: rest =>
    if pattern.isPrefixOf (c :: rest) then some ([], (c :: rest).drop pattern.length)
    else (splitAt? pattern rest).map fun (before, after) => (c :: before, after)

/-- Splits a text at the last occurrence of a pattern. -/
def splitAtLast? (pattern : List Char) : List Char → Option (List Char × List Char)
  | [] => none
  | c :: rest =>
    match splitAtLast? pattern rest with
    | some (before, after) => some (c :: before, after)
    | none =>
      if pattern.isPrefixOf (c :: rest) then some ([], (c :: rest).drop pattern.length) else none

/-- The pieces of a text between the occurrences of a pattern that is not empty, of which there
are at most `fuel`. -/
def splitOnText (pattern : List Char) : Nat → List Char → List (List Char)
  | 0, cs => [cs]
  | fuel + 1, cs =>
    match splitAt? pattern cs with
    | some (before, after) => before :: splitOnText pattern fuel after
    | none => [cs]

end LiveTemplate.Text
