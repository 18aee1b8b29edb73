/-
The grammar of expressions, by recursive descent: arrows and conditionals bind least, then binary
operators by their precedence, prefix operators, and chains of member accesses, indexes and calls.
Every function takes a bound on the depth of its recursion; `parse` gives one that is never met.
-/
import LiveTemplate.Expr.Basic
import LiveTemplate.Expr.Token

namespace LiveTemplate.Grammar

open Text

/-- Readers of a list of tokens. -/
abbrev Parser := StateT (List Lexeme) (Except Fault)

namespace Parser

/-- The fault that one thing stands where another was expected. -/
def mismatch (what : String) (found : Lexeme) : Fault :=
  ⟨.expected what found.token.describe, found.span⟩

/-- The fault that a region ends where something was expected. -/
def missing (what : String) (stop : Nat) : Fault :=
  ⟨.expected what "end of expression", Span.empty stop⟩

/-- The next token, which stays. -/
def peek : Parser (Option Lexeme) := fun ts => .ok (ts.head?, ts)

/-- Takes the next token. -/
def next (stop : Nat) (what : String) : Parser Lexeme
  | [] => .error (missing what stop)
  | t :: rest => .ok (t, rest)

/-- Takes a given token. -/
def expect (stop : Nat) (wanted : Token) : Parser Span
  | [] => .error (missing wanted.describe stop)
  | t :: rest =>
    if t.token = wanted then .ok (t.span, rest) else .error (mismatch wanted.describe t)

/-- Takes a given token if it comes next. -/
def eat (wanted : Token) : Parser (Option Span)
  | [] => .ok (none, [])
  | t :: rest => if t.token = wanted then .ok (some t.span, rest) else .ok (none, t :: rest)

/-- Takes a property name. -/
def property (stop : Nat) : Parser (String × Span)
  | [] => .error (missing "identifier" stop)
  | ⟨.ident name, span⟩ :: rest => .ok ((name, span), rest)
  | t :: _ => .error (mismatch "identifier" t)

/-- The parameters up to a closing parenthesis and an arrow, and what follows the arrow. -/
def paramsTail : List Lexeme → Option (List String × List Lexeme)
  | ⟨.ident name, _⟩ :: ⟨.comma, _⟩ :: rest =>
    (paramsTail rest).map fun (ps, rest) => (name :: ps, rest)
  | ⟨.ident name, _⟩ :: ⟨.closeParen, _⟩ :: ⟨.arrow, _⟩ :: rest => some ([name], rest)
  | _ => none

/-- The parameters of an arrow function that begins here, and what follows the arrow. -/
def arrowParams : List Lexeme → Option (List String × List Lexeme)
  | ⟨.ident name, _⟩ :: ⟨.arrow, _⟩ :: rest => some ([name], rest)
  | ⟨.openParen, _⟩ :: ⟨.closeParen, _⟩ :: ⟨.arrow, _⟩ :: rest => some ([], rest)
  | ⟨.openParen, _⟩ :: rest => paramsTail rest
  | _ => none

end Parser

/-- The binary operator that a token stands for. -/
def binaryOp? : Token → Option BinaryOp
  | .star => some .mul
  | .slash => some .div
  | .percent => some .rem
  | .plus => some .add
  | .minus => some .sub
  | .lt => some .lt
  | .gt => some .gt
  | .le => some .le
  | .ge => some .ge
  | .eqEq => some .eq
  | .notEq => some .ne
  | .eqEqEq => some .strictEq
  | .notEqEq => some .strictNe
  | .andAnd => some .and
  | .orOr => some .or
  | .nullish => some .nullish
  | _ => none

/-- The prefix operator that a token stands for. -/
def unaryOp? : Token → Option UnaryOp
  | .bang => some .not
  | .minus => some .neg
  | .plus => some .plus
  | .ident "typeof" => some .typeOf
  | _ => none

/-! ## Literals -/

/-- The base that the first two characters of a numeral announce. -/
def radix? : List Char → Option Nat
  | '0' :: c :: _ =>
    if c == 'x' || c == 'X' then some 16
    else if c == 'o' || c == 'O' then some 8
    else if c == 'b' || c == 'B' then some 2
    else none
  | _ => none

/-- The number a numeral writes; underscores do not count. Whole numbers within 64 bits are
integers, and a numeral with a base has to be one. -/
def numeral? (text : List Char) : Option Value :=
  let raw := text.filter (· != '_')
  match radix? raw with
  | some base => match Decimal.natOfDigits base (raw.drop 2) with
    | some n => if n < Decimal.pow2 63 then some (.int (Int64.ofNat n)) else none
    | none => none
  | none =>
    if raw.all isAsciiDigit && Decimal.valueOf raw < Decimal.pow2 63 then
      some (.int (Int64.ofNat (Decimal.valueOf raw)))
    else (Decimal.parseDouble raw).map .float

/-- The character with a code of four hexadecimal digits, the first of which may be a plus. -/
def codeChar? (digits : List Char) : Option Char :=
  let digits := match digits with
    | '+' :: rest => rest
    | ds => ds
  (Decimal.natOfDigits 16 digits).bind fun n =>
    if n < 0xD800 ∨ 0xDFFF < n then some (Char.ofNat n) else none

/-- The character that an escape stands for and the text after it; `rest` follows the backslash
at `pos`. -/
def escape (pos : Nat) : List Char → Except Fault (Char × List Char)
  | [] => .error ⟨.unknownEscape, pos, pos + 1⟩
  | c :: rest =>
    if c == 'n' then .ok ('\n', rest)
    else if c == 'r' then .ok ('\r', rest)
    else if c == 't' then .ok ('\t', rest)
    else if c == '0' then .ok ('\x00', rest)
    else if Delimiter.isQuote c || c == '\\' || c == '$' || c == '{' || c == '}' then
      .ok (c, rest)
    else if c == 'u' then
      match rest with
      | a :: b :: d :: e :: rest => match codeChar? [a, b, d, e] with
        | some c => .ok (c, rest)
        | none => .error ⟨.badUnicodeEscape, pos, pos + 2⟩
      | _ => .error ⟨.badUnicodeEscape, pos, pos + 2⟩
    else .error ⟨.unknownEscape, pos, pos + 1 + c.utf8Size⟩

/-- The text of a string of at most `fuel` characters, its escapes replaced. -/
def unescape : Nat → Nat → List Char → Except Fault (List Char)
  | 0, _, _ => .ok []
  | _ + 1, _, [] => .ok []
  | fuel + 1, pos, '\\' :: rest => do
    let (c, after) ← escape pos rest
    let text ← unescape fuel (pos + 1 + byteLength (rest.take (rest.length - after.length))) after
    .ok (c :: text)
  | fuel + 1, pos, c :: rest => do
    let text ← unescape fuel (pos + c.utf8Size) rest
    .ok (c :: text)

/-- The text of a string token. -/
def stringText (span : Span) (body : List Char) : Except Fault String :=
  (unescape body.length (span.start + 1) body).map String.ofList

/-- Puts a character in front of the parts of a template string. -/
def pushChar (c : Char) : List TemplatePart → List TemplatePart
  | .text t :: rest => .text (String.ofList (c :: t.toList)) :: rest
  | parts => .text (String.ofList [c]) :: parts

/-- The expression that a word stands for. -/
def wordExpr (span : Span) : String → Expr
  | "true" => .literal span (.bool true)
  | "false" => .literal span (.bool false)
  | "null" | "undefined" => .literal span .null
  | "NaN" => .literal span (.float Value.nan)
  | "Infinity" => .literal span (.float (1.0 / 0.0))
  | "this" => .self span
  | name => .name span name

/-- The key of an entry of an object literal. -/
def entryKey (t : Lexeme) : Except Fault String :=
  match t.token with
  | .ident name => .ok name
  | .string body => stringText t.span body
  | .number text => match numeral? text with
    | some v => .ok v.display
    | none => .error ⟨.badNumber, t.span⟩
  | _ => .error (Parser.mismatch "object key" t)

/-- The value of an entry that is written as its key alone. -/
def shorthand (stop : Nat) (t : Lexeme) : Parser Expr :=
  match t.token with
  | .ident name => return .name t.span name
  | _ => do throw (Parser.mismatch "colon" (← Parser.next stop "expression"))

/-! ## The grammar -/

mutual

/-- An arrow function or a conditional. -/
def expr (stop : Nat) : Nat → Parser Expr
  | 0 => fun _ => .error (Parser.missing "expression" stop)
  | fuel + 1 => fun ts =>
    match Parser.arrowParams ts with
    | some (params, rest) =>
      match rest with
      | ⟨.openBrace, span⟩ :: _ => .error ⟨.bracedArrowBody, span⟩
      | rest => do
        let (body, rest) ← expr stop fuel rest
        let start := (ts.head?.map Lexeme.span).getD body.span
        .ok (.arrow (start.union body.span) params body, rest)
    | none => conditionalExpr stop fuel ts
  termination_by structural n => n

def conditionalExpr (stop : Nat) : Nat → Parser Expr
  | 0 => fun _ => .error (Parser.missing "expression" stop)
  | fuel + 1 => do
    let test ← binaryExpr stop fuel 1
    match ← Parser.eat .question with
    | none => return test
    | some _ =>
      let yes ← expr stop fuel
      let _ ← Parser.expect stop .colon
      let no ← expr stop fuel
      return .conditional (test.span.union no.span) test yes no
  termination_by structural n => n

/-- Operators that bind at least as tightly as `least`. -/
def binaryExpr (stop : Nat) : Nat → Nat → Parser Expr
  | 0, _ => fun _ => .error (Parser.missing "expression" stop)
  | fuel + 1, least => do
    let lhs ← unaryExpr stop fuel
    binaryTail stop fuel least lhs
  termination_by structural n => n

def binaryTail (stop : Nat) : Nat → Nat → Expr → Parser Expr
  | 0, _, lhs => return lhs
  | fuel + 1, least, lhs => fun ts =>
    match ts with
    | t :: rest =>
      match binaryOp? t.token with
      | some op =>
        if op.precedence < least then .ok (lhs, ts)
        else do
          let (rhs, rest) ← binaryExpr stop fuel (op.precedence + 1) rest
          binaryTail stop fuel least (.binary (lhs.span.union rhs.span) op lhs rhs) rest
      | none => .ok (lhs, ts)
    | [] => .ok (lhs, ts)
  termination_by structural n => n

def unaryExpr (stop : Nat) : Nat → Parser Expr
  | 0 => fun _ => .error (Parser.missing "expression" stop)
  | fuel + 1 => fun ts =>
    match ts with
    | t :: rest =>
      match unaryOp? t.token with
      | some op => do
        let (operand, rest) ← unaryExpr stop fuel rest
        .ok (.unary (t.span.union operand.span) op operand, rest)
      | none => postfixExpr stop fuel ts
    | [] => postfixExpr stop fuel ts
  termination_by structural n => n

def postfixExpr (stop : Nat) : Nat → Parser Expr
  | 0 => fun _ => .error (Parser.missing "expression" stop)
  | fuel + 1 => do
    let e ← primary stop fuel
    postfixTail stop fuel e
  termination_by structural n => n

/-- Member accesses, indexes and calls on an expression. -/
def postfixTail (stop : Nat) : Nat → Expr → Parser Expr
  | 0, e => return e
  | fuel + 1, e => do
    match (← Parser.peek).map Lexeme.token with
    | some .dot =>
      let _ ← Parser.expect stop .dot
      let (name, span) ← Parser.property stop
      postfixTail stop fuel (.member (e.span.union span) e name false)
    | some .questionDot =>
      let _ ← Parser.expect stop .questionDot
      match (← Parser.peek).map Lexeme.token with
      | some .openBracket => postfixTail stop fuel (← indexOn stop fuel e true)
      | some .openParen => postfixTail stop fuel (← callOn stop fuel e)
      | _ =>
        let (name, span) ← Parser.property stop
        postfixTail stop fuel (.member (e.span.union span) e name true)
    | some .openBracket => postfixTail stop fuel (← indexOn stop fuel e false)
    | some .openParen => postfixTail stop fuel (← callOn stop fuel e)
    | _ => return e
  termination_by structural n => n

def indexOn (stop : Nat) : Nat → Expr → Bool → Parser Expr
  | 0, e, _ => return e
  | fuel + 1, object, optional => do
    let _ ← Parser.expect stop .openBracket
    let i ← expr stop fuel
    let closing ← Parser.expect stop .closeBracket
    return .index (object.span.union closing) object i optional
  termination_by structural n => n

def callOn (stop : Nat) : Nat → Expr → Parser Expr
  | 0, e => return e
  | fuel + 1, callee => do
    let _ ← Parser.expect stop .openParen
    let (args, closing) ← exprList stop fuel .closeParen
    return .call (callee.span.union closing) callee args
  termination_by structural n => n

/-- Expressions between commas up to a closing token; a comma may stand before it. -/
def exprList (stop : Nat) : Nat → Token → Parser (List Expr × Span)
  | 0, _ => fun _ => .error (Parser.missing "expression" stop)
  | fuel + 1, closing => do
    match ← Parser.eat closing with
    | some span => return ([], span)
    | none =>
      let e ← expr stop fuel
      match ← Parser.eat .comma with
      | some _ =>
        let (others, span) ← exprList stop fuel closing
        return (e :: others, span)
      | none => return ([e], ← Parser.expect stop closing)
  termination_by structural n => n

/-- A literal, a name, or an expression in brackets. -/
def primary (stop : Nat) : Nat → Parser Expr
  | 0 => fun _ => .error (Parser.missing "expression" stop)
  | fuel + 1 => do
    let t ← Parser.next stop "expression"
    match t.token with
    | .number text =>
      match numeral? text with
      | some v => return .literal t.span v
      | none => throw ⟨.badNumber, t.span⟩
    | .string body => return .literal t.span (.text (← stringText t.span body))
    | .template body => return .template t.span (← templateParts fuel (t.span.start + 1) body)
    | .ident name => return wordExpr t.span name
    | .openParen =>
      let e ← expr stop fuel
      let closing ← Parser.expect stop .closeParen
      return e.withSpan (t.span.union closing)
    | .openBracket =>
      let (items, closing) ← exprList stop fuel .closeBracket
      return .array (t.span.union closing) items
    | .openBrace =>
      let (entries, closing) ← objectEntries stop fuel
      return .object (t.span.union closing) entries
    | _ => throw (Parser.mismatch "expression" t)
  termination_by structural n => n

/-- The entries of an object literal after its opening brace. -/
def objectEntries (stop : Nat) : Nat → Parser (List (String × Expr) × Span)
  | 0 => fun _ => .error (Parser.missing "expression" stop)
  | fuel + 1 => do
    match ← Parser.eat .closeBrace with
    | some span => return ([], span)
    | none =>
      let t ← Parser.next stop "expression"
      let key ← (entryKey t : Except Fault String)
      let value ← match ← Parser.eat .colon with
        | some _ => expr stop fuel
        | none => shorthand stop t
      match ← Parser.eat .comma with
      | some _ =>
        let (others, span) ← objectEntries stop fuel
        return ((key, value) :: others, span)
      | none => return ([(key, value)], ← Parser.expect stop .closeBrace)
  termination_by structural n => n

/-- The parts of a template string whose text at `pos` is given. -/
def templateParts : Nat → Nat → List Char → Except Fault (List TemplatePart)
  | 0, _, _ => .ok []
  | _ + 1, _, [] => .ok []
  | fuel + 1, pos, '$' :: '{' :: rest =>
    match Delimiter.closeBrace (pos + 1) rest with
    | .error _ => .error ⟨.unclosedBrace, pos + 1, pos + 2⟩
    | .ok (inside, after) => do
      let e ← parseRegion fuel ⟨pos + 2, inside.dropLast⟩
      let others ← templateParts fuel (pos + 2 + byteLength inside) after
      .ok (.hole e :: others)
  | fuel + 1, pos, '\\' :: rest => do
    let (c, after) ← escape pos rest
    let others ← templateParts fuel
      (pos + 1 + byteLength (rest.take (rest.length - after.length))) after
    .ok (pushChar c others)
  | fuel + 1, pos, c :: rest => do
    let others ← templateParts fuel (pos + c.utf8Size) rest
    .ok (pushChar c others)
  termination_by structural n => n

/-- A region that holds one expression. -/
def parseRegion : Nat → Region → Except Fault Expr
  | 0, region => .error (Parser.missing "expression" region.stop)
  | fuel + 1, region => do
    let ts ← tokenize region
    let (e, rest) ← expr region.stop fuel ts
    match rest with
    | [] => .ok e
    | t :: _ => .error (Parser.mismatch "end of expression" t)
  termination_by structural n => n

end

end LiveTemplate.Grammar

/-- The expression in a region. -/
def LiveTemplate.Expr.parse (region : LiveTemplate.Region) :
    Except LiveTemplate.Fault LiveTemplate.Expr :=
  LiveTemplate.Grammar.parseRegion (8 * (region.text.length + 2)) region
