/-
A template cut into texts, tags and braced parts. Comments are dropped, a backslash before a brace
makes the brace plain text, and a tag that never ends is text up to the end of the source.
-/
import LiveTemplate.Delimiter
import LiveTemplate.Text.Identifier
import LiveTemplate.Text.Region

namespace LiveTemplate.Markup

open Text

inductive Token where
  /-- Markup to be kept as it is. -/
  | text (region : Region)
  /-- A tag with its angle brackets. -/
  | tag (region : Region)
  /-- The inside of a pair of braces. -/
  | braced (region : Region)
  /-- A tag that never ends. -/
  | unterminated (region : Region)
deriving Repr, DecidableEq

/-- The part of the source that a token covers. -/
def Token.region : Token → Region
  | text r | tag r | braced r | unterminated r => r

/-- Whether the text after a `<` makes it the start of a tag. -/
def startsTag : List Char → Bool
  | c :: _ => isAsciiLetter c || c == '/' || c == '!'
  | [] => false

/-- The rest of a run of text, up to a brace, an escaped brace or a tag. -/
def textRun : List Char → List Char
  | [] => []
  | c :: rest =>
    if c == '{' || (c == '\\' && rest.head? == some '{') || (c == '<' && startsTag rest) then []
    else c :: textRun rest

/-- The text after the first `-->`, or nothing. -/
def afterComment : List Char → List Char
  | [] => []
  | '-' :: '-' :: '>' :: rest => rest
  | _ :: rest => afterComment rest

/-- The tokens of a text at offset `pos` by at most `fuel` steps, and the fault that ends them. -/
def tokensFrom : Nat → Nat → List Char → List Token × Option Fault
  | 0, _, _ => ([], none)
  | _ + 1, _, [] => ([], none)
  | fuel + 1, pos, c :: rest =>
    let go (token : Token) (read : List Char) : List Token × Option Fault :=
      let (others, fault) := tokensFrom fuel (pos + byteLength read) ((c :: rest).drop read.length)
      (token :: others, fault)
    if c == '\\' && rest.head? == some '{' then go (.text ⟨pos + 1, ['{']⟩) ['\\', '{']
    else if c == '{' then
      match Delimiter.closeBrace pos rest with
      | .ok (inside, _) => go (.braced ⟨pos + 1, inside.dropLast⟩) ('{' :: inside)
      | .error unclosed => ([], some unclosed.fault)
    else if c == '<' && ['!', '-', '-'].isPrefixOf rest then
      let after := afterComment (rest.drop 3)
      let length := (c :: rest).length - after.length
      tokensFrom fuel (pos + byteLength ((c :: rest).take length)) after
    else if c == '<' && startsTag rest then
      match Delimiter.closeTag pos rest with
      | .ok (inside, _) => go (.tag ⟨pos, c :: inside⟩) (c :: inside)
      | .error _ => ([.unterminated ⟨pos, c :: rest⟩], none)
    else
      let run := c :: textRun rest
      go (.text ⟨pos, run⟩) run

/-- The tokens of a source, and the fault that ends them if there is one. -/
def tokens (source : List Char) : List Token × Option Fault :=
  tokensFrom source.length 0 source

end LiveTemplate.Markup
