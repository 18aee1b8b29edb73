/-
Matching of delimiters. One pass over the characters keeps a stack of what is open: a tag, a
quoted attribute value, a brace, or a quoted string, whose template form may hold braces again.
All delimiters are ASCII, so characters and bytes agree on where they are.
-/
import LiveTemplate.Error

namespace LiveTemplate.Delimiter

/-- A delimiter without its partner, and where it stands. -/
inductive Unclosed where
  | brace (offset : Nat)
  | quote (offset : Nat)
  | tag (offset : Nat)
deriving Repr, DecidableEq

/-- Something that is open, and where it was opened. -/
inductive Frame where
  /-- Braces, `depth` of them beyond the one at `opened`. -/
  | brace (opened depth : Nat)
  /-- A string in an expression, where a backslash guards the next character. -/
  | quote (opened : Nat) (mark : Char)
  /-- An attribute value, where nothing is guarded. -/
  | value (opened : Nat) (mark : Char)
  | tag (opened : Nat)
deriving Repr, DecidableEq

/-- What is missing if the text ends inside a frame. -/
def Frame.unclosed : Frame → Unclosed
  | brace opened _ => .brace opened
  | quote opened _ => .quote opened
  | value opened _ => .quote opened
  | tag opened => .tag opened

/-- The marks that open a string in an expression. -/
def isQuote (c : Char) : Bool := c == '"' || c == '\'' || c == '\x60'

/-- The stack after a character at offset `pos`. A dollar and a brace in a template string, and
the character after a backslash, are seen to by the caller. -/
def step (pos : Nat) (c : Char) : Frame → List Frame → List Frame
  | .brace opened depth, frames =>
    if c == '{' then .brace opened (depth + 1) :: frames
    else if c == '}' then
      if depth = 0 then frames else .brace opened (depth - 1) :: frames
    else if isQuote c then .quote pos c :: .brace opened depth :: frames
    else .brace opened depth :: frames
  | .quote opened mark, frames => if c == mark then frames else .quote opened mark :: frames
  | .value opened mark, frames => if c == mark then frames else .value opened mark :: frames
  | .tag opened, frames =>
    if c == '>' then frames
    else if c == '"' || c == '\'' then .value pos c :: .tag opened :: frames
    else if c == '{' then .brace pos 0 :: .tag opened :: frames
    else .tag opened :: frames

/-- Splits a text after the character that closes the last of the frames. -/
def close : List Frame → Nat → List Char → Except Unclosed (List Char × List Char)
  | [], _, rest => .ok ([], rest)
  | frame :: _, _, [] => .error frame.unclosed
  | .quote opened mark :: frames, pos, '\\' :: rest =>
    match rest with
    | [] => .error (.quote opened)
    | c :: rest =>
      (close (.quote opened mark :: frames) (pos + 1 + c.utf8Size) rest).map
        fun (inside, rest) => ('\\' :: c :: inside, rest)
  | .quote opened mark :: frames, pos, '$' :: '{' :: rest =>
    let frames := .quote opened mark :: frames
    let frames := if mark == '\x60' then .brace (pos + 1) 0 :: frames else frames
    (close frames (pos + 2) rest).map fun (inside, rest) => ('$' :: '{' :: inside, rest)
  | frame :: frames, pos, c :: rest =>
    (close (step pos c frame frames) (pos + c.utf8Size) rest).map
      fun (inside, rest) => (c :: inside, rest)

/-- Splits the text after an opening brace at `opened` behind the brace that matches it. -/
def closeBrace (opened : Nat) (rest : List Char) : Except Unclosed (List Char × List Char) :=
  close [.brace opened 0] (opened + 1) rest

/-- Splits the text after an opening quote at `opened` behind the quote that closes the string. -/
def closeQuote (opened : Nat) (mark : Char) (rest : List Char) :
    Except Unclosed (List Char × List Char) :=
  close [.quote opened mark] (opened + 1) rest

/-- Splits the text after the `<` of a tag at `opened` behind the `>` that ends it. -/
def closeTag (opened : Nat) (rest : List Char) : Except Unclosed (List Char × List Char) :=
  close [.tag opened] (opened + 1) rest

/-- How a delimiter without its partner is reported. -/
def Unclosed.fault : Unclosed → Fault
  | brace offset => ⟨.unclosedBrace, offset, offset + 1⟩
  | quote offset => ⟨.undelimitedString, offset, offset + 1⟩
  | tag offset => ⟨.unclosedTag, offset, offset + 1⟩

end LiveTemplate.Delimiter
