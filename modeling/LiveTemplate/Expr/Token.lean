/-
The tokens of an expression. Blanks between them are skipped; a string token holds its text
between the quotes as written.
-/
import LiveTemplate.Delimiter
import LiveTemplate.Text.Identifier
import LiveTemplate.Text.Region

namespace LiveTemplate.Grammar

open Text

inductive Token where
  | ident (name : String)
  | number (text : List Char)
  | string (body : List Char)
  | template (body : List Char)
  | openParen
  | closeParen
  | openBracket
  | closeBracket
  | openBrace
  | closeBrace
  | comma
  | colon
  | dot
  | questionDot
  | question
  | nullish
  | arrow
  | bang
  | plus
  | minus
  | star
  | slash
  | percent
  | lt
  | gt
  | le
  | ge
  | eqEq
  | notEq
  | eqEqEq
  | notEqEq
  | andAnd
  | orOr
deriving Repr, DecidableEq

/-- A token and the region it was read from. -/
structure Lexeme where
  token : Token
  span : Span
deriving Repr, DecidableEq

/-- How messages call a token. -/
def Token.describe : Token → String
  | ident _ => "identifier"
  | number _ => "number"
  | string _ => "string"
  | template _ => "template string"
  | openParen => "`(`"
  | closeParen => "`)`"
  | openBracket => "`[`"
  | closeBracket => "`]`"
  | openBrace => "`\x7b`"
  | closeBrace => "`\x7d`"
  | comma => "comma"
  | colon => "colon"
  | dot => "member access operator"
  | questionDot => "optional member access operator"
  | question => "`?`"
  | nullish => "`??`"
  | arrow => "`=>`"
  | bang => "`!`"
  | plus => "`+`"
  | minus => "`-`"
  | star => "`*`"
  | slash => "`/`"
  | percent => "`%`"
  | lt => "`<`"
  | gt => "`>`"
  | le => "`<=`"
  | ge => "`>=`"
  | eqEq => "`==`"
  | notEq => "`!=`"
  | eqEqEq => "`===`"
  | notEqEq => "`!==`"
  | andAnd => "`&&`"
  | orOr => "`||`"

/-- A character that begins an identifier. -/
def isNameStart (c : Char) : Bool := c == '_' || c == '$' || isIdentifierStart c

/-- A character that continues an identifier. -/
def isNamePart (c : Char) : Bool := c == '$' || isIdentifierContinue c

/-- The operator or bracket at the front, and how many characters it has. A question mark and a
point before a digit are not one operator. -/
def symbol? : List Char → Option (Token × Nat)
  | '=' :: '=' :: '=' :: _ => some (.eqEqEq, 3)
  | '!' :: '=' :: '=' :: _ => some (.notEqEq, 3)
  | '=' :: '=' :: _ => some (.eqEq, 2)
  | '!' :: '=' :: _ => some (.notEq, 2)
  | '=' :: '>' :: _ => some (.arrow, 2)
  | '<' :: '=' :: _ => some (.le, 2)
  | '>' :: '=' :: _ => some (.ge, 2)
  | '&' :: '&' :: _ => some (.andAnd, 2)
  | '|' :: '|' :: _ => some (.orOr, 2)
  | '?' :: '?' :: _ => some (.nullish, 2)
  | '?' :: '.' :: rest =>
    if (rest.head?.map isAsciiDigit).getD false then some (.question, 1) else some (.questionDot, 2)
  | '?' :: _ => some (.question, 1)
  | '(' :: _ => some (.openParen, 1)
  | ')' :: _ => some (.closeParen, 1)
  | '[' :: _ => some (.openBracket, 1)
  | ']' :: _ => some (.closeBracket, 1)
  | '{' :: _ => some (.openBrace, 1)
  | '}' :: _ => some (.closeBrace, 1)
  | ',' :: _ => some (.comma, 1)
  | ':' :: _ => some (.colon, 1)
  | '!' :: _ => some (.bang, 1)
  | '+' :: _ => some (.plus, 1)
  | '-' :: _ => some (.minus, 1)
  | '*' :: _ => some (.star, 1)
  | '/' :: _ => some (.slash, 1)
  | '%' :: _ => some (.percent, 1)
  | '<' :: _ => some (.lt, 1)
  | '>' :: _ => some (.gt, 1)
  | '.' :: rest => if (rest.head?.map isAsciiDigit).getD false then none else some (.dot, 1)
  | _ => none

/-- The characters that go on a numeral after `prev`: letters, digits, points and underscores, and
a sign after the mark of an exponent. -/
def numeralTail (prev : Char) : List Char → List Char
  | [] => []
  | c :: rest =>
    if isAsciiLetter c || isAsciiDigit c || c == '.' || c == '_'
        || ((c == '+' || c == '-') && (prev == 'e' || prev == 'E')) then
      c :: numeralTail c rest
    else []

/-- The token that begins with the first character, and how many characters it has. -/
def token (start stop : Nat) (c : Char) (rest : List Char) : Except Fault (Token × Nat) :=
  match symbol? (c :: rest) with
  | some found => .ok found
  | none =>
    if Delimiter.isQuote c then
      match Delimiter.closeQuote start c rest with
      | .ok (inside, _) =>
        let body := inside.dropLast
        .ok (if c == '\x60' then .template body else .string body, inside.length + 1)
      | .error _ => .error ⟨.undelimitedString, start, stop⟩
    else if c == '.' || isAsciiDigit c then
      let text := c :: numeralTail '\x00' rest
      .ok (.number text, text.length)
    else if isNameStart c then
      let text := c :: rest.takeWhile isNamePart
      .ok (.ident (String.ofList text), text.length)
    else .error ⟨.unexpectedCharacter, start, start + c.utf8Size⟩

/-- At most `fuel` tokens of a region. -/
def tokens : Nat → Region → Except Fault (List Lexeme)
  | 0, _ => .ok []
  | fuel + 1, region =>
    let region := region.dropWhile isBlank
    match region.text with
    | [] => .ok []
    | c :: rest => do
      let (found, length) ← token region.start region.stop c rest
      let others ← tokens fuel (region.drop length)
      .ok (⟨found, (region.take length).span⟩ :: others)

/-- The tokens of a region. -/
def tokenize (region : Region) : Except Fault (List Lexeme) :=
  tokens region.text.length region

end LiveTemplate.Grammar
