/-
What can go wrong, and how it is reported. A cause belongs to one kind and has one wording; an
error is a cause with the template's name and the place in a source, as far as they are known.
-/
import LiveTemplate.Decimal.Layout
import LiveTemplate.Span
import LiveTemplate.Text.Slice
import LiveTemplate.Text.Width

namespace LiveTemplate

/-- The kinds of errors. -/
inductive ErrorKind where
  /-- A delimiter without its partner. -/
  | lexical
  /-- A malformed directive, tag or expression. -/
  | grammar
  /-- Blocks and elements that are not properly nested. -/
  | nesting
  /-- A malformed attribute or component name. -/
  | attributeName
  /-- A failure while evaluating. -/
  | evaluation
  /-- A failure that a method or function of the embedder reports. -/
  | method
deriving Repr, DecidableEq

/-- The causes of errors. Texts in a cause are quoted in its message. -/
inductive Cause where
  | unclosedBrace
  | undelimitedString
  | unclosedTag
  | expected (what found : String)
  | missingExpression (keyword : String)
  | textAfter (directive : String)
  | missingAs
  | missingIn
  | textAfterElse
  | unknownDirective (text : String)
  | missingLoopVariable
  | misplacedArrow
  | notAFunction (name : String)
  | unknownFunction (name : String)
  | unnamedCallee
  | unexpectedCharacter
  | bracedArrowBody
  | badUnicodeEscape
  | unknownEscape
  | badNumber
  | unclosedFragmentHead
  | missingFragmentName
  | unclosedFragment (name : String)
  | unclosedReference
  | unknownFragment (name : String)
  | cyclicFragment (name : String)
  | unclosedDoubleBrace
  | unknownLegacyDirective (keyword : String)
  | missingTagName
  | missingAttributeValue
  | emptyHandler
  | badAttributeName
  | badComponentName (name : String)
  | unclosedBlock (opener : String)
  | mismatchedTag (openName found : String)
  | unexpectedClosingTag (name : String)
  | unexpectedDirective (directive : String)
  | mismatchedBlock (closer directive : String)
  | noOpenBlock (directive : String)
  | unclosedElement (name opener : String)
  | stateNotMap (kind : String)
  | propsNotMap (kind : String)
  | badPath (path : String)
  | notAnIndex (path segment : String) (length : Nat)
  | cannotIndex (path kind : String)
  | missingFunction (name : String)
  | arrowValue
  | callOnNull (property : String)
  | uncallable
  | propertyOfNull (property : String)
  | indexOfNull (index : String)
  | unknownMethod (name : String)
  | undefinedName (name : String)
  | notText (kind : String)
  | notIterable (kind : String)
  | unknownToken (token : Nat)
  | unknownValueMethod (name kind : String)
  | notAnObject (function kind : String)
  | keyNotString
  | reported (text : String)
deriving Repr, DecidableEq

namespace Cause

/-- The kind of a cause. -/
def kind : Cause → ErrorKind
  | unclosedBrace | undelimitedString | unclosedTag => .lexical
  | badAttributeName | badComponentName _ => .attributeName
  | unclosedBlock _ | mismatchedTag .. | unexpectedClosingTag _ | unexpectedDirective _
  | mismatchedBlock .. | noOpenBlock _ | unclosedElement .. => .nesting
  | stateNotMap _ | propsNotMap _ | badPath _ | notAnIndex .. | cannotIndex ..
  | missingFunction _ | arrowValue | callOnNull _ | uncallable | propertyOfNull _
  | indexOfNull _ | unknownMethod _ | undefinedName _ | notText _ | notIterable _
  | unknownToken _ | unknownValueMethod .. | notAnObject .. | keyNotString => .evaluation
  | reported _ => .method
  | _ => .grammar

/-- The wording of a cause. -/
def message : Cause → String
  | unclosedBrace => "unclosed brace"
  | undelimitedString => "undelimited string"
  | unclosedTag => "unclosed tag"
  | expected what found => s!"expected {what}, found {found}"
  | missingExpression keyword => s!"expected expression after `{keyword}`"
  | textAfter directive => s!"unexpected text after {directive}"
  | missingAs => "expected `as` in `\x7b#each\x7d` directive"
  | missingIn => "expected `in` in `\x7b#for\x7d` directive"
  | textAfterElse => "unexpected text after `\x7b:else\x7d`"
  | unknownDirective text => s!"unknown directive `{text}`"
  | missingLoopVariable => "expected loop variable"
  | misplacedArrow => "arrow functions are only allowed as event handlers"
  | notAFunction name => s!"`{name}` is not a function"
  | unknownFunction name | missingFunction name => s!"unknown function `{name}`"
  | unnamedCallee | uncallable => "expected function or method name"
  | unexpectedCharacter => "unexpected character"
  | bracedArrowBody =>
    "arrow function bodies must be an expression, wrap object literals in parentheses"
  | badUnicodeEscape => "invalid unicode escape"
  | unknownEscape => "unknown escape character"
  | badNumber => "invalid number literal"
  | unclosedFragmentHead => "unclosed `\x7b\x7b#block`"
  | missingFragmentName => "expected fragment name"
  | unclosedFragment name => s!"unclosed fragment `{name}`"
  | unclosedReference => "unclosed fragment reference"
  | unknownFragment name => s!"unknown fragment `{name}`"
  | cyclicFragment name => s!"fragment `{name}` references itself"
  | unclosedDoubleBrace => "unclosed `\x7b\x7b`"
  | unknownLegacyDirective keyword => s!"unknown legacy directive `{keyword}`"
  | missingTagName => "expected tag name"
  | missingAttributeValue => "expected attribute value"
  | emptyHandler => "empty event handler"
  | badAttributeName => "invalid attribute name"
  | badComponentName name => s!"invalid component name `{name}`, expected at least two words"
  | unclosedBlock opener => s!"unclosed {opener} block"
  | mismatchedTag openName found => s!"expected `</{openName}>`, found `</{found}>`"
  | unexpectedClosingTag name => s!"unexpected closing tag `</{name}>`"
  | unexpectedDirective directive => s!"unexpected {directive}"
  | mismatchedBlock closer directive => s!"expected {closer}, found {directive}"
  | noOpenBlock directive => s!"unexpected {directive}, no block is open"
  | unclosedElement name opener => s!"unclosed element `<{name}>` inside {opener} block"
  | stateNotMap kind => s!"expected state to be a map, found {kind}"
  | propsNotMap kind => s!"expected props to be a map, found {kind}"
  | badPath path => s!"invalid state path `{path}`"
  | notAnIndex path segment length =>
    s!"cannot set `{path}`, `{segment}` is not an index of a list of length "
      ++ Decimal.natText length
  | cannotIndex path kind => s!"cannot set `{path}`, cannot index into {kind}"
  | arrowValue => "arrow functions can only be used as event handlers"
  | callOnNull property => s!"cannot call `{property}` on null"
  | propertyOfNull property => s!"cannot read property `{property}` of null"
  | indexOfNull index => s!"cannot read index `{index}` of null"
  | unknownMethod name => s!"unknown method `{name}`"
  | undefinedName name => s!"`{name}` is not defined"
  | notText kind => s!"cannot render {kind} as text"
  | notIterable kind => s!"expected iterable, but expression evaluated to {kind}"
  | unknownToken token => "unknown handler token " ++ Decimal.natText token
  | unknownValueMethod name kind => s!"unknown method `{name}` on {kind}"
  | notAnObject function kind => s!"{function} expected object, found {kind}"
  | keyNotString => "key must be a string"
  | reported text => text

end Cause

/-- A cause at a region of the source that is being read. -/
structure Fault where
  cause : Cause
  span : Span
deriving Repr, DecidableEq

/-- A region of a source text. -/
structure Location where
  source : String
  span : Span
deriving Repr, DecidableEq

/-- A cause with the name of the template and the place it refers to, where known. -/
structure Error where
  cause : Cause
  template : Option String
  location : Option Location
deriving Repr, DecidableEq

namespace Error

/-- An error without a place. -/
def bare (cause : Cause) : Error := ⟨cause, none, none⟩

/-- An error at a place. -/
def located (cause : Cause) (source : String) (span : Span) : Error :=
  ⟨cause, none, some ⟨source, span⟩⟩

/-- A fault in a given source. -/
def ofFault (source : String) (fault : Fault) : Error :=
  located fault.cause source fault.span

/-- Gives a place to an error that has none; an empty source has no places. -/
def locate (source : String) (span : Span) (e : Error) : Error :=
  if e.location.isNone && !source.isEmpty then { e with location := some ⟨source, span⟩ } else e

/-- Names the template of an error that has no name yet. -/
def named (template : Option String) (e : Error) : Error :=
  if e.template.isNone then { e with template } else e

/-- The kind of an error. -/
def kind (e : Error) : ErrorKind := e.cause.kind

/-- The message alone. -/
def message (e : Error) : String := e.cause.message

/-- The region of the error. -/
def span (e : Error) : Option Span := e.location.map Location.span

/-- The message followed by the byte range. -/
def summary (e : Error) : String :=
  match e.location with
  | none => e.message
  | some ⟨_, span⟩ =>
    e.message ++ " between bytes " ++ Decimal.natText span.start ++ " and "
      ++ Decimal.natText span.stop

end Error

/-! ## The caret report -/

open Text

/-- The line that holds a byte offset, counted from zero, and the column in it, when the lines
before these took `passed` lines and `n` bytes. -/
def lineColumnFrom (offset passed n : Nat) : List (List Char) → Option (Nat × Nat)
  | [] => none
  | line :: rest =>
    let stop := n + byteLength line + 1
    if offset < stop then some (passed, width (takeBytes (offset - n) line))
    else lineColumnFrom offset (passed + 1) stop rest

/-- The line that holds a byte offset and the column in it, both counted from zero. An offset past
the last line is at its end. -/
def lineColumn (lines : List (List Char)) (offset : Nat) : Nat × Nat :=
  (lineColumnFrom offset 0 0 lines).getD (lines.length - 1, width (lines.getLast?.getD []))

/-- Some spaces. -/
def spaces (n : Nat) : String :=
  String.ofList (List.replicate n ' ')

namespace Error

/-- The message under the line it refers to, with carets below the region. -/
def report (e : Error) : String :=
  match e.location with
  | none => e.message
  | some ⟨source, span⟩ =>
    let chars := source.toList
    let rows := lines chars
    let (line, column) := lineColumn rows span.start
    let carets := max 1 (width (firstLine (slice span.start span.stop chars)))
    let code := String.ofList ((rows[line]?).getD (rows.getLast?.getD []))
    let number := Decimal.natText (line + 1)
    let margin := "\n " ++ spaces number.length
    let header := match e.template with
      | some name =>
        margin ++ "--> " ++ name ++ ":" ++ number ++ ":" ++ Decimal.natText (column + 1)
      | none => ""
    header ++ margin ++ " |\n " ++ number ++ " | " ++ code ++ margin ++ " | " ++ spaces column
      ++ String.ofList (List.replicate carets '^') ++ " " ++ e.message ++ "\n"

end Error

end LiveTemplate
