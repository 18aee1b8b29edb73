/-
Expressions. The parser yields plain names and calls; resolution turns them into roots and into
calls of component methods and of known functions, so that evaluation never guesses what a name
refers to. Every expression knows the region of the source it was read from.
-/
import LiveTemplate.Span
import LiveTemplate.Value.Basic

namespace LiveTemplate

/-- What a resolved expression starts from. -/
inductive Root where
  /-- The component itself: its props overlaid with its state. -/
  | component
  | state
  | props
  /-- A loop variable or an arrow parameter. -/
  | bound (name : String)
  /-- A field of the component, looked up in the state and then in the props. -/
  | field (name : String)
deriving Repr, DecidableEq

inductive UnaryOp where
  | not
  | neg
  | plus
  | typeOf
deriving Repr, DecidableEq

inductive BinaryOp where
  | mul
  | div
  | rem
  | add
  | sub
  | lt
  | gt
  | le
  | ge
  | eq
  | ne
  | strictEq
  | strictNe
  | and
  | or
  | nullish
deriving Repr, DecidableEq

mutual

inductive Expr where
  | literal (span : Span) (value : Value)
  /-- A template string. -/
  | template (span : Span) (parts : List TemplatePart)
  /-- A name before resolution. -/
  | name (span : Span) (name : String)
  /-- The component before resolution. -/
  | self (span : Span)
  | root (span : Span) (root : Root)
  | member (span : Span) (object : Expr) (property : String) (optional : Bool)
  | index (span : Span) (object : Expr) (index : Expr) (optional : Bool)
  /-- A call of whatever an expression gives. -/
  | call (span : Span) (callee : Expr) (args : List Expr)
  /-- A call of a method of the component. -/
  | method (span : Span) (name : String) (args : List Expr)
  /-- A call of a known function. -/
  | function (span : Span) (name : String) (args : List Expr)
  | unary (span : Span) (op : UnaryOp) (operand : Expr)
  | binary (span : Span) (op : BinaryOp) (lhs rhs : Expr)
  | conditional (span : Span) (test yes no : Expr)
  | array (span : Span) (items : List Expr)
  | object (span : Span) (entries : List (String × Expr))
  | arrow (span : Span) (params : List String) (body : Expr)

/-- A piece of a template string. -/
inductive TemplatePart where
  | text (text : String)
  | hole (expr : Expr)

end

instance : Inhabited Expr := ⟨.self default⟩

/-- How tightly an operator binds; a larger number binds tighter. -/
def BinaryOp.precedence : BinaryOp → Nat
  | or | nullish => 1
  | and => 2
  | eq | ne | strictEq | strictNe => 3
  | lt | gt | le | ge => 4
  | add | sub => 5
  | mul | div | rem => 6

/-- An operator as it is written. -/
def BinaryOp.symbol : BinaryOp → String
  | mul => "*"
  | div => "/"
  | rem => "%"
  | add => "+"
  | sub => "-"
  | lt => "<"
  | gt => ">"
  | le => "<="
  | ge => ">="
  | eq => "=="
  | ne => "!="
  | strictEq => "==="
  | strictNe => "!=="
  | and => "&&"
  | or => "||"
  | nullish => "??"

namespace Expr

/-- The region an expression was read from. -/
def span : Expr → Span
  | literal s _ | template s _ | name s _ | self s | root s _ | member s _ _ _ | index s _ _ _
  | call s _ _ | method s _ _ | function s _ _ | unary s _ _ | binary s _ _ _
  | conditional s _ _ _ | array s _ | object s _ | arrow s _ _ => s

/-- The same expression at another region, as parentheses around it make it. -/
def withSpan (s : Span) : Expr → Expr
  | literal _ v => literal s v
  | template _ parts => template s parts
  | name _ n => name s n
  | self _ => self s
  | root _ r => root s r
  | member _ o p q => member s o p q
  | index _ o i q => index s o i q
  | call _ c args => call s c args
  | method _ n args => method s n args
  | function _ n args => function s n args
  | unary _ op e => unary s op e
  | binary _ op l r => binary s op l r
  | conditional _ c t e => conditional s c t e
  | array _ items => array s items
  | object _ entries => object s entries
  | arrow _ params body => arrow s params body

/-- Whether an expression is an object literal. -/
def isObject : Expr → Bool
  | object .. => true
  | _ => false

/-- How tightly the outermost form of an expression binds when it is printed. -/
def precedence : Expr → Nat
  | arrow .. | conditional .. => 0
  | binary _ op _ _ => op.precedence
  | unary .. => 7
  | literal _ (.int i) => if i < 0 then 7 else 8
  | literal _ (.float x) => if Decimal.isNegative x then 7 else 8
  | _ => 8

end Expr

/-- The variables of a loop. -/
structure LoopBinding where
  /-- The declared parameters, in order. -/
  params : List String
  /-- The index variable that a single parameter brings along. -/
  indexParam : Option String
  /-- Whether the parameters stood in parentheses or brackets. -/
  destructured : Bool
deriving Repr, DecidableEq

namespace LoopBinding

/-- Every name that a binding brings into scope. -/
def names (b : LoopBinding) : List String :=
  b.params ++ b.indexParam.toList

/-- A binding as it is written. -/
def print (b : LoopBinding) : String :=
  let params := ", ".intercalate b.params
  if b.destructured then "(" ++ params ++ ")" else params

end LoopBinding

end LiveTemplate
