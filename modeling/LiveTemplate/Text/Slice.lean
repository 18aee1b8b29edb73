/-
Texts cut at byte offsets. Positions in a source count the bytes of UTF-8, while texts are lists of
characters; every cut falls between two characters.
-/
import LiveTemplate.Text.Blank

namespace LiveTemplate.Text

/-- The text without its first `n` bytes. -/
def dropBytes : Nat → List Char → List Char
  | _, [] => []
  | n, c :: rest => if n = 0 then c :: rest else dropBytes (n - c.utf8Size) rest

/-- The characters that lie within the first `n` bytes. -/
def takeBytes : Nat → List Char → List Char
  | _, [] => []
  | n, c :: rest => if c.utf8Size ≤ n then c :: takeBytes (n - c.utf8Size) rest else []

/-- The text between two byte offsets. -/
def slice (start stop : Nat) (cs : List Char) : List Char :=
  takeBytes (stop - start) (dropBytes start cs)

/-- The lines of a text, of which `line` holds the current one, last character first. -/
def linesFrom (line : List Char) : List Char → List (List Char)
  | [] => if line.isEmpty then [] else [line.reverse]
  | c :: rest => if c == '\n' then line.reverse :: linesFrom [] rest else linesFrom (c :: line) rest

/-- The lines of a text; a line feed ends a line and begins none. -/
def lines (cs : List Char) : List (List Char) :=
  linesFrom [] cs

/-- The pieces of a text between the occurrences of a character; `piece` holds the current one, last
character first. -/
def splitFrom (separator : Char) (piece : List Char) : List Char → List (List Char)
  | [] => [piece.reverse]
  | c :: rest =>
    if c = separator then piece.reverse :: splitFrom separator [] rest
    else splitFrom separator (c :: piece) rest

/-- The pieces of a text between the occurrences of a character. -/
def splitAll (separator : Char) (cs : List Char) : List (List Char) :=
  splitFrom separator [] cs

/-- The text before the first line feed. -/
def firstLine (cs : List Char) : List Char :=
  cs.takeWhile (· != '\n')

end LiveTemplate.Text
