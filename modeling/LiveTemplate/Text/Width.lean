/-
How many columns a text takes in a terminal. They are the columns of its characters, but pictures
made of several characters take two in all, letters that are drawn as one take one, and a carriage
return and the line feed after it take one.
-/
import LiveTemplate.Text.Emoji
import LiveTemplate.Text.Ligature

namespace LiveTemplate.Text

/-- How many flag letters stand before a joiner and a picture. The last two of an even number of
letters are a flag that is joined to the picture. -/
inductive FlagRun where
  | one
  | even
  /-- An odd number above one. -/
  | odd
deriving Repr, DecidableEq

/-- What stands after a selector, as far as the character before the selector matters. -/
inductive Selected where
  | other
  /-- A joiner and a picture. -/
  | joined
  | ligature (part : Ligature)
deriving Repr, DecidableEq

/-- What a text begins with, as far as the character before it matters. -/
inductive Lead where
  | other
  | lineFeed
  /-- A picture, alone or the first of several that are joined. -/
  | picture
  /-- A modifier, whose columns are counted already. -/
  | modifier
  /-- One flag letter. -/
  | flagLetter
  /-- Several flag letters. -/
  | flagLetters
  /-- A joiner before a picture. -/
  | joiner
  /-- A keycap before a joiner and a picture. -/
  | keycap
  /-- Flag letters before a joiner and a picture. -/
  | joinedFlag (run : FlagRun)
  /-- Letters of the name of a region, up to its end, before a joiner and a picture. -/
  | tagLetters (count : Nat)
  /-- Digits of the name of a region before its letters, a joiner and a picture. -/
  | tagDigits (count : Nat)
  | ligature (part : Ligature)
  | selector (style : Style) (rest : Selected)
deriving Repr, DecidableEq

namespace Lead

/-- What counts of a text after a selector before it. -/
def selected : Lead → Selected
  | .joiner | .keycap => .joined
  | .ligature part => .ligature part
  | _ => .other

/-- What is left of a selector that selects nothing: a ligature stays open across it, and pictures
are not joined across it. -/
def unselected : Lead → Lead
  | .selector _ (.ligature part) => .ligature part
  | .selector _ _ => .other
  | lead => lead

/-- A character in the style that the selector after it asks for. -/
def select? (lead : Lead) (c : Char) : Option (Int × Lead) :=
  match lead with
  | .selector .picture rest =>
    if becomesPicture c then some (if rest = .joined then 0 else 2, .picture) else none
  | .selector .sign _ => if becomesNarrow c then some (1, .other) else none
  | _ => none

/-- A character that joins the text after it: the columns that it adds, which are negative if they
take back columns that were counted, and what the longer text begins with. -/
def merge? (lead : Lead) (c : Char) : Option (Int × Lead) :=
  match lead with
  | .other | .keycap | .selector _ _ => none
  | .lineFeed => if c == '\r' then some (0, .other) else none
  | .ligature part =>
    match part.passing? c with
    | some part => some (0, .ligature part)
    | none => (part.extend? c).map fun (columns, rest) => (columns, rest.elim .other .ligature)
  | .picture => if isJoiner c then some (0, .joiner) else none
  | .modifier =>
    if modifiableRanges.has c then some (0, .picture)
    else if isJoiner c then some (0, .joiner)
    else none
  | .flagLetter => if isFlagLetter c then some (1, .flagLetters) else none
  | .flagLetters =>
    if isFlagLetter c then some (1, .flagLetters)
    else if isJoiner c then some (0, .joiner)
    else none
  | .joiner =>
    if isKeycap c then some (0, .keycap)
    else if isFlagLetter c then some (1, .joinedFlag .one)
    else if isModifier c then some (0, .modifier)
    else if isTagEnd c then some (0, .tagLetters 0)
    else if pictureRanges.has c then some (0, .picture)
    else none
  | .joinedFlag .one => if isFlagLetter c then some (-1, .joinedFlag .even) else none
  | .joinedFlag .even =>
    if isFlagLetter c then some (3, .joinedFlag .odd)
    else if isJoiner c then some (0, .joiner)
    else none
  | .joinedFlag .odd =>
    if isFlagLetter c then some (-1, .joinedFlag .even)
    else if isJoiner c then some (0, .joiner)
    else none
  | .tagLetters count =>
    if isTagLetter c && count < 6 then some (0, .tagLetters (count + 1))
    else if isTagDigit c && count < 5 then some (0, .tagDigits 1)
    else if isTaggedFlag c && 3 ≤ count then some (0, .picture)
    else none
  | .tagDigits count =>
    if isTagDigit c && count < 3 then some (0, .tagDigits (count + 1))
    else if isTaggedFlag c && count == 3 then some (0, .picture)
    else none

/-- The columns of a character by itself, and what a text begins with that begins with it. -/
def single (c : Char) : Int × Lead :=
  if c == '\n' then (1, .lineFeed)
  else if isModifier c then (2, .modifier)
  else if isFlagLetter c then (1, .flagLetter)
  else if pictureRanges.has c then (2, .picture)
  else (charWidth c, (Ligature.endingIn? c).elim .other .ligature)

/-- The columns that a character adds to a text that begins as told, and what the longer text
begins with. -/
def extend (lead : Lead) (c : Char) : Int × Lead :=
  match lead.select? c with
  | some result => result
  | none =>
    let lead := lead.unselected
    match selectedStyle? c with
    | some style => (0, .selector style lead.selected)
    | none => (lead.merge? c).getD (single c)

end Lead

/-- The columns that a text takes, and what it begins with. -/
def measure : List Char → Int × Lead
  | [] => (0, .other)
  | c :: rest =>
    let (columns, lead) := measure rest
    let (more, lead) := lead.extend c
    (columns + more, lead)

/-- The columns that a text takes. -/
def width (cs : List Char) : Nat :=
  (measure cs).1.toNat

end LiveTemplate.Text
