/-
Quoted form of a text, as the program listing and the inspection texts show it: between double
quotes, with escapes for the quote, the backslash and everything that would not print.
-/
import LiveTemplate.Text.Printable

namespace LiveTemplate.Text

/-- How one character appears between the quotes. -/
def quoteChar (c : Char) : List Char :=
  if c == '\x00' then ['\\', '0']
  else if c == '\t' then ['\\', 't']
  else if c == '\r' then ['\\', 'r']
  else if c == '\n' then ['\\', 'n']
  else if c == '\\' || c == '"' then ['\\', c]
  else if isPrintable c then [c]
  else "\\u\x7b".toList ++ Nat.toDigits 16 c.toNat ++ ['}']

/-- The quoted form of a text. -/
def quoted (text : String) : String :=
  String.ofList ('"' :: text.toList.flatMap quoteChar ++ ['"'])

end LiveTemplate.Text
