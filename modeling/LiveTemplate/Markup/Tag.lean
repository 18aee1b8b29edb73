/-
Tags: a name and attributes. A name with a capital letter is a component's and is written in
words joined by hyphens.
-/
import LiveTemplate.Delimiter
import LiveTemplate.Text.Identifier
import LiveTemplate.Text.Region

namespace LiveTemplate.Markup

open Text

inductive AttributeValue where
  /-- A text. -/
  | plain (text : String)
  /-- An expression. -/
  | dynamic (region : Region)
  /-- No value. -/
  | flag
deriving Repr, DecidableEq

structure Attribute where
  name : String
  value : AttributeValue
  span : Span
deriving Repr, DecidableEq

structure Tag where
  name : String
  attributes : List Attribute
  isClosing : Bool
  isSelfClosing : Bool
  span : Span
deriving Repr, DecidableEq

/-- The elements that have neither children nor a closing tag. -/
def voidElements : List String :=
  ["area", "base", "br", "col", "embed", "hr", "img", "input", "link", "meta", "param", "source",
    "track", "wbr"]

def isVoid (name : String) : Bool := voidElements.contains name

/-- The event that an attribute handles: what follows `on` in the name of a dynamic one. -/
def Attribute.event? (a : Attribute) : Option String :=
  match a.value, a.name.toList with
  | .dynamic _, 'o' :: 'n' :: c :: rest => some (String.ofList (c :: rest))
  | _, _ => none

/-! ## Names -/

def isAsciiUpper (c : Char) : Bool := 'A' ≤ c && c ≤ 'Z'

/-- Words joined by hyphens, all in lower case; `last` is the character written before. -/
def kebabFrom (last : Option Char) : List Char → List Char
  | [] => []
  | c :: rest =>
    if isAsciiUpper c then
      let hyphen := if last.isSome && last != some '-' then ['-'] else []
      hyphen ++ c.toLower :: kebabFrom (some c.toLower) rest
    else c :: kebabFrom (some c) rest

/-- The name of the element that a tag name stands for. A component needs at least two words. -/
def elementName (region : Region) : Except Fault String :=
  if !region.text.any isAsciiUpper then .ok region.toString
  else
    let name := kebabFrom none region.text
    if name.contains '-' then .ok (String.ofList name)
    else .error ⟨.badComponentName region.toString, region.span⟩

def isTagNameChar (c : Char) : Bool :=
  isAsciiLetter c || isAsciiDigit c || c == '_' || c == '-'

def isAttributeNameChar (c : Char) : Bool := c == '-' || isIdentifierContinue c

/-- Whether a character goes on a malformed attribute name. -/
def isNameJunk (c : Char) : Bool := !isBlank c && c != '='

/-! ## Attributes -/

/-- The value between quotes at the front of `here`. A value that ends beyond the tag, whose rest
of the source is `tail`, is cut off before the last character of the tag. Where nothing is left to
cut off, or that character takes more than one byte, reading breaks off without any result; what is
given here stands for no run then. -/
def quotedValue (mark : Char) (here : Region) (tail : List Char) :
    Except Fault (AttributeValue × Region) :=
  let body := (here.drop 1).text
  let value := body.takeWhile (· != mark)
  if value.length < body.length then
    .ok (.plain (String.ofList value), here.drop (value.length + 2))
  else if tail.contains mark then
    .ok (.plain (String.ofList body.dropLast), here.drop here.text.length)
  else .error ⟨.undelimitedString, here.start, here.start + 1⟩

/-- How a delimiter without its partner is reported inside a tag. -/
def tagFault : Delimiter.Unclosed → Fault
  | .brace offset => ⟨.unclosedBrace, offset, offset + 1⟩
  | .quote offset | .tag offset => ⟨.undelimitedString, offset, offset + 1⟩

/-- The expression between braces at the front of `here`. Where its brace closes beyond the tag,
reading breaks off without any result; the fault given here stands for no run then. -/
def bracedValue (here : Region) (tail : List Char) : Except Fault (AttributeValue × Region) :=
  match Delimiter.closeBrace here.start (here.drop 1 |>.text.append tail) with
  | .error unclosed => .error (tagFault unclosed)
  | .ok (inside, _) =>
    if inside.length < here.text.length then
      .ok (.dynamic ⟨here.start + 1, inside.dropLast⟩, here.drop (inside.length + 1))
    else .error ⟨.unclosedBrace, here.start, here.start + 1⟩

/-- A value without quotes; a slash at the end of the tag is not part of it. -/
def bareValue (here : Region) : AttributeValue × Region :=
  let value := here.text.takeWhile (!isBlank ·)
  let value := if value.length = here.text.length && value.getLast? == some '/' && 1 < value.length
    then value.dropLast else value
  (.plain (String.ofList value), here.drop value.length)

/-- An attribute at the front of `here`, and what follows it in the tag. -/
def readAttribute (here : Region) (tail : List Char) : Except Fault (Attribute × Region) :=
  let name := here.text.takeWhile isAttributeNameChar
  let after := here.drop name.length
  let junk := after.dropWhile isNameJunk
  if name.isEmpty then
    let stop := if junk.start = here.start then min (here.start + 1) here.stop else junk.start
    .error ⟨.badAttributeName, here.start, stop⟩
  else if (after.text.head?.map fun c => isNameJunk c && c != '/').getD false then
    .error ⟨.badAttributeName, here.start, junk.start⟩
  else
    let name := String.ofList name
    let sign := after.dropWhile isBlank
    if sign.text.head? != some '=' then .ok (⟨name, .flag, here.start, after.start⟩, after)
    else
      let value := (sign.drop 1).dropWhile isBlank
      let finish (found : AttributeValue × Region) : Attribute × Region :=
        (⟨name, found.1, here.start, found.2.start⟩, found.2)
      match value.text with
      | [] => .error ⟨.missingAttributeValue, here.start, value.start⟩
      | c :: _ =>
        if c == '"' || c == '\'' then (quotedValue c value tail).map finish
        else if c == '{' then (bracedValue value tail).map finish
        else .ok (finish (bareValue value))

/-- The attributes in the rest of a tag, and whether it closes itself. -/
def readAttributes : Nat → Region → List Char → Except Fault (List Attribute × Bool)
  | 0, _, _ => .ok ([], false)
  | fuel + 1, here, tail =>
    let here := here.dropWhile isBlank
    match here.text with
    | [] => .ok ([], false)
    | ['/'] => .ok ([], true)
    | _ => do
      let (first, rest) ← readAttribute here tail
      let (others, isSelfClosing) ← readAttributes fuel rest tail
      .ok (first :: others, isSelfClosing)

/-- The tag in a region with its angle brackets; `tail` is the source from its `>` on. -/
def Tag.parse (region : Region) (tail : List Char) : Except Fault Tag := do
  let inside : Region := ⟨region.start + 1, (region.text.drop 1).dropLast⟩
  let isClosing := inside.text.head? == some '/'
  let here := if isClosing then inside.drop 1 else inside
  if !(here.text.head?.map isAsciiLetter).getD false then throw ⟨.missingTagName, region.span⟩
  let length := (here.text.takeWhile isTagNameChar).length
  let name ← elementName (here.take length)
  let (attributes, isSelfClosing) ← readAttributes (here.text.length + 1) (here.drop length) tail
  return { name, attributes, isClosing, isSelfClosing, span := region.span }

end LiveTemplate.Markup
