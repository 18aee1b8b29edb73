/-
Expressions as source text, with no more parentheses than the precedence of the operators asks
for. Event handlers are put into pages in this form.
-/
import LiveTemplate.Expr.Basic
import LiveTemplate.Text.Identifier
import LiveTemplate.Text.Quoted

namespace LiveTemplate

open Text

/-- Whether a key needs no quotes. -/
def isPlainKey (key : String) : Bool :=
  match key.toList with
  | [] => false
  | c :: rest =>
    (isAsciiLetter c || c == '_' || c == '$')
      && rest.all fun c => isAsciiLetter c || isAsciiDigit c || c == '_' || c == '$'

/-- Whether a character is a control character. -/
def isControl (c : Char) : Bool :=
  c.toNat < 0x20 || (0x7F ≤ c.toNat && c.toNat < 0xA0)

/-- How one character appears in a printed string. -/
def stringLiteralChar (c : Char) : List Char :=
  if c == '"' || c == '\\' then ['\\', c]
  else if c == '\n' then ['\\', 'n']
  else if c == '\r' then ['\\', 'r']
  else if c == '\t' then ['\\', 't']
  else if isControl c then
    ['\\', 'u', '0', '0', Nat.digitChar (c.toNat / 16), Nat.digitChar (c.toNat % 16)]
  else [c]

/-- A string literal. -/
def stringLiteral (s : String) : String :=
  String.ofList ('"' :: s.toList.flatMap stringLiteralChar ++ ['"'])

/-- The text of a template string between its holes. -/
def templateText : List Char → List Char
  | [] => []
  | '$' :: '{' :: rest => '\\' :: '$' :: '{' :: templateText rest
  | c :: rest =>
    if c == '\\' || c == '\x60' then '\\' :: c :: templateText rest else c :: templateText rest

/-- Entries between braces, with blanks inside unless there are none. -/
def braced (entries : List String) : String :=
  if entries.isEmpty then "\x7b\x7d" else "\x7b " ++ ", ".intercalate entries ++ " \x7d"

mutual

/-- A value as a literal. -/
def Value.literalText : Value → String
  | .null => "null"
  | .bool b => if b then "true" else "false"
  | .int i => Decimal.intText i.toInt
  | .float x => Value.floatText x
  | .text s => stringLiteral s
  | .list _ items => "[" ++ ", ".intercalate (literalItems items) ++ "]"
  | .map _ entries => braced (literalEntries entries)

def literalItems : List Value → List String
  | [] => []
  | v :: rest => v.literalText :: literalItems rest

def literalEntries : List (String × Value) → List String
  | [] => []
  | (k, v) :: rest => (stringLiteral k ++ ": " ++ v.literalText) :: literalEntries rest

end

/-- A root as it is written. -/
def Root.print : Root → String
  | component => "this"
  | state => "this.state"
  | props => "this.props"
  | bound name => name
  | field name => "this." ++ name

/-- A prefix operator as it is written. -/
def UnaryOp.symbol : UnaryOp → String
  | not => "!"
  | neg => "-"
  | plus => "+"
  | typeOf => "typeof "

/-- The text of an operand, in parentheses if it binds less tightly than its place asks. -/
def parenthesize (needed actual : Nat) (text : String) : String :=
  if actual < needed then "(" ++ text ++ ")" else text

/-- Arguments between parentheses. -/
def argumentList (args : List String) : String :=
  "(" ++ ", ".intercalate args ++ ")"

mutual

/-- An expression as source text. -/
def Expr.print : Expr → String
  | .literal _ v => v.literalText
  | .template _ parts => "\x60" ++ printParts parts ++ "\x60"
  | .name _ n => n
  | .self _ => "this"
  | .root _ r => r.print
  | .member _ o property optional =>
    parenthesize 8 o.precedence o.print ++ (if optional then "?." else ".") ++ property
  | .index _ o i optional =>
    parenthesize 8 o.precedence o.print ++ (if optional then "?." else "") ++ "[" ++ i.print ++ "]"
  | .call _ callee args =>
    parenthesize 8 callee.precedence callee.print ++ argumentList (printAll args)
  | .method _ n args => "this." ++ n ++ argumentList (printAll args)
  | .function _ n args => n ++ argumentList (printAll args)
  | .unary _ op e => op.symbol ++ parenthesize 7 e.precedence e.print
  | .binary _ op l r =>
    parenthesize op.precedence l.precedence l.print ++ " " ++ op.symbol ++ " "
      ++ parenthesize (op.precedence + 1) r.precedence r.print
  | .conditional _ c t e =>
    parenthesize 1 c.precedence c.print ++ " ? " ++ t.print ++ " : " ++ e.print
  | .array _ items => "[" ++ ", ".intercalate (printAll items) ++ "]"
  | .object _ entries => braced (printEntries entries)
  | .arrow _ params body =>
    "(" ++ ", ".intercalate params ++ ") => "
      ++ (if body.isObject then "(" ++ body.print ++ ")" else body.print)

def printAll : List Expr → List String
  | [] => []
  | e :: rest => e.print :: printAll rest

def printEntries : List (String × Expr) → List String
  | [] => []
  | (k, e) :: rest =>
    ((if isPlainKey k then k else stringLiteral k) ++ ": " ++ e.print) :: printEntries rest

def printParts : List TemplatePart → String
  | [] => ""
  | .text s :: rest => String.ofList (templateText s.toList) ++ printParts rest
  | .hole e :: rest => "$\x7b" ++ e.print ++ "\x7d" ++ printParts rest

end

end LiveTemplate
