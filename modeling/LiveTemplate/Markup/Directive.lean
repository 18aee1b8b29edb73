/-
What stands between braces: a directive, which opens, divides or closes a block or writes a value
in a special way, or a plain expression.
-/
import LiveTemplate.Expr.Basic
import LiveTemplate.Expr.Token

namespace LiveTemplate.Markup

open Text

/-- A braced part; the regions are those of the expressions in it. -/
inductive Directive where
  | ifOpen (test : Region)
  | unlessOpen (test : Region)
  | elseIf (test : Region)
  | elseOnly
  | eachOpen (collection : Region) (binding : LoopBinding)
  | forOpen (binding : LoopBinding) (collection : Region)
  | ifClose
  | unlessClose
  | eachClose
  | forClose
  | html (expr : Region)
  | json (expr : Region)
  | expression (expr : Region)
deriving Repr, DecidableEq

/-- How messages call a directive. -/
def Directive.describe : Directive → String
  | ifOpen _ => "`\x7b#if\x7d`"
  | unlessOpen _ => "`\x7b#unless\x7d`"
  | elseIf _ => "`\x7b:else if\x7d`"
  | elseOnly => "`\x7b:else\x7d`"
  | eachOpen .. => "`\x7b#each\x7d`"
  | forOpen .. => "`\x7b#for\x7d`"
  | ifClose => "`\x7b/if\x7d`"
  | unlessClose => "`\x7b/unless\x7d`"
  | eachClose => "`\x7b/each\x7d`"
  | forClose => "`\x7b/for\x7d`"
  | html _ => "`\x7b@html\x7d`"
  | json _ => "`\x7b@json\x7d`"
  | expression _ => "expression"

/-- The name of the index variable that a single loop parameter brings along. -/
def implicitIndex : String := "index"

/-! ## Loop headers -/

/-- The parameters in a list of tokens that alternates names and commas. -/
def loopParams : List Grammar.Lexeme → Except Fault (List String)
  | [] => .ok []
  | ⟨.ident name, _⟩ :: [] => .ok [name]
  | ⟨.ident name, _⟩ :: ⟨.comma, _⟩ :: rest => (loopParams rest).map (name :: ·)
  | ⟨.ident _, _⟩ :: t :: _ => .error ⟨.expected "comma" t.token.describe, t.span⟩
  | t :: _ => .error ⟨.expected "loop variable" t.token.describe, t.span⟩

/-- The tokens inside the brackets around them, if there are any. -/
def unbracket (ts : List Grammar.Lexeme) : Option (List Grammar.Lexeme) :=
  match ts.head?.map Grammar.Lexeme.token, ts.getLast?.map Grammar.Lexeme.token with
  | some .openParen, some .closeParen => some (ts.drop 1).dropLast
  | some .openBracket, some .closeBracket => some (ts.drop 1).dropLast
  | _, _ => none

/-- The variables of a loop header. A single parameter without brackets brings an index along. -/
def parseBinding (region : Region) : Except Fault LoopBinding := do
  let ts ← Grammar.tokenize region
  let inner := (unbracket ts).getD ts
  let destructured := (unbracket ts).isSome
  let params ← loopParams inner
  if params.isEmpty || inner.length % 2 == 0 then throw ⟨.missingLoopVariable, region.span⟩
  let indexParam := if !destructured && params.length == 1 then some implicitIndex else none
  return { params, indexParam, destructured }

/-- Where a keyword between blanks stands outside of brackets and strings, the last or the first
time, counted in characters. At most `fuel` steps lead from character `i` to the end. -/
def findKeyword (keyword : List Char) (last : Bool) :
    Nat → Nat → Int → Bool → List Char → Option Nat
  | 0, _, _, _, _ => none
  | _ + 1, _, _, _, [] => none
  | fuel + 1, i, depth, afterBlank, c :: rest =>
    let next (depth : Int) := findKeyword keyword last fuel (i + 1) depth (isAsciiBlank c) rest
    if c == '(' || c == '[' || c == '{' then next (depth + 1)
    else if c == ')' || c == ']' || c == '}' then next (depth - 1)
    else if Delimiter.isQuote c then
      match Delimiter.closeQuote 0 c rest with
      | .ok (inside, rest) => findKeyword keyword last fuel (i + 1 + inside.length) depth false rest
      | .error _ => none
    else
      let beforeBlank := (((c :: rest).drop keyword.length).head?.map isAsciiBlank).getD false
      if depth = 0 && keyword.isPrefixOf (c :: rest) && afterBlank && beforeBlank then
        if last then next depth <|> some i else some i
      else next depth

/-- The parts before and after a keyword. -/
def splitAtKeyword (keyword : String) (last : Bool) (region : Region) : Option (Region × Region) :=
  (findKeyword keyword.toList last (region.text.length + 1) 0 0 false region.text).map fun i =>
    (region.take i, region.drop (i + keyword.length))

/-! ## Directives -/

/-- Reads what stands between two braces. -/
def Directive.parse (braced : Region) : Except Fault Directive :=
  let here := braced.trim
  let hasSigil := match here.text with
    | c :: _ => c == '#' || c == ':' || c == '/' || c == '@'
    | [] => false
  if !hasSigil then .ok (.expression here)
  else
    let length := 1 + ((here.text.drop 1).takeWhile (!isBlank ·)).length
    let head := here.take length
    let rest := (here.drop length).trim
    let needed (r : Region) : Except Fault Region :=
      if r.isEmpty then .error ⟨.missingExpression head.toString, here.span⟩ else .ok r
    let alone (d : Directive) : Except Fault Directive :=
      if rest.isEmpty then .ok d else .error ⟨.textAfter d.describe, rest.span⟩
    match head.toString with
    | "#if" => (needed rest).map .ifOpen
    | "#unless" => (needed rest).map .unlessOpen
    | "#each" => do
      let rest ← needed rest
      match splitAtKeyword "as" true rest with
      | none => .error ⟨.missingAs, rest.span⟩
      | some (collection, binding) => return .eachOpen collection.trim (← parseBinding binding.trim)
    | "#for" => do
      let rest ← needed rest
      match splitAtKeyword "in" false rest with
      | none => .error ⟨.missingIn, rest.span⟩
      | some (binding, collection) =>
        let binding ← parseBinding binding.trim
        return .forOpen binding (← needed collection.trim)
    | ":else" =>
      match rest.text with
      | [] => .ok .elseOnly
      | ['i', 'f'] => (needed (rest.drop 2).trim).map .elseIf
      | 'i' :: 'f' :: ' ' :: _ => (needed (rest.drop 2).trim).map .elseIf
      | 'i' :: 'f' :: '\t' :: _ => (needed (rest.drop 2).trim).map .elseIf
      | _ => .error ⟨.textAfterElse, rest.span⟩
    | "/if" => alone .ifClose
    | "/unless" => alone .unlessClose
    | "/each" => alone .eachClose
    | "/for" => alone .forClose
    | "@html" => (needed rest).map .html
    | "@json" => (needed rest).map .json
    | text => .error ⟨.unknownDirective text, head.span⟩

end LiveTemplate.Markup
