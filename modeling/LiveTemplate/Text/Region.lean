/-
Pieces of a source text that know where they start, so that whatever is read from them can be
located in the whole.
-/
import LiveTemplate.Span
import LiveTemplate.Text.Slice

namespace LiveTemplate

open Text

/-- A piece of a source and the offset of its first byte. -/
structure Region where
  start : Nat
  text : List Char
deriving Repr, DecidableEq

namespace Region

/-- The piece of a source that a span covers. -/
def ofSpan (source : List Char) (span : Span) : Region :=
  ⟨span.start, slice span.start span.stop source⟩

/-- A whole source. -/
def whole (source : String) : Region := ⟨0, source.toList⟩

/-- The offset after the last byte. -/
def stop (r : Region) : Nat := r.start + byteLength r.text

/-- The bytes the piece covers. -/
def span (r : Region) : Span := ⟨r.start, r.stop⟩

/-- The piece without its first `n` characters. -/
def drop (n : Nat) (r : Region) : Region :=
  ⟨r.start + byteLength (r.text.take n), r.text.drop n⟩

/-- The first `n` characters of the piece. -/
def take (n : Nat) (r : Region) : Region := ⟨r.start, r.text.take n⟩

/-- The piece from the first character on that fails a test. -/
def dropWhile (p : Char → Bool) (r : Region) : Region :=
  r.drop (r.text.takeWhile p).length

/-- The piece without blanks at both ends. -/
def trim (r : Region) : Region :=
  let r := r.dropWhile isBlank
  ⟨r.start, trimEnd r.text⟩

def isEmpty (r : Region) : Bool := r.text.isEmpty

/-- The text of the piece. -/
def toString (r : Region) : String := String.ofList r.text

end Region

end LiveTemplate
