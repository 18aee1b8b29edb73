/-
Engines compile sources into templates and keep them by their source. Whatever changes how
sources are compiled empties the cache.
-/
import LiveTemplate.DoubleBrace
import LiveTemplate.Functions.Builtins
import LiveTemplate.Program.Compiler
import LiveTemplate.Registry
import LiveTemplate.Template

namespace LiveTemplate

/-- Whether sources in the older dialect are recognised. -/
inductive LegacyDialect where
  | detect
  | disabled
deriving Repr, DecidableEq

/-- What compiling reports besides its result. -/
inductive Warning where
  /-- The source is written in the older dialect. -/
  | legacyDialect (name : Option String)
  /-- A tag never ends, and so is text. -/
  | unterminatedTag (offset : Nat)
deriving Repr, DecidableEq

/-- The wording of a warning. -/
def Warning.message : Warning → String
  | legacyDialect name =>
    "template uses the legacy double brace syntax component=" ++ Text.quoted (name.getD "anonymous")
  | unterminatedTag offset =>
    "unterminated tag, treating it as text offset=" ++ Decimal.natText offset

structure Engine where
  functions : Functions
  legacy : LegacyDialect
  handlerCapacity : Nat
  /-- The templates by their source. -/
  cache : List (String × Template)
  /-- The number of the next template. -/
  next : Nat

namespace Engine

/-- An engine with the built-in functions. -/
def new : Engine := ⟨builtins, .detect, Registry.defaultCapacity, [], 0⟩

def clearCache (e : Engine) : Engine := { e with cache := [] }

def addFunction (e : Engine) (name : String) (f : Function) : Engine :=
  { e with functions := e.functions.insert name f }.clearCache

def setLegacy (e : Engine) (legacy : LegacyDialect) : Engine := { e with legacy }.clearCache

def setHandlerCapacity (e : Engine) (handlerCapacity : Nat) : Engine :=
  { e with handlerCapacity }.clearCache

/-- Compiles a source that is in the form with single braces. -/
def compileSource (e : Engine) (name : Option String) (source : String) :
    List Warning × Except Error Template :=
  let result := compile e.functions.contains source
  let template := match result.program with
    | .error fault => .error ((Error.ofFault source fault).named name)
    | .ok program =>
      .ok
        { serial := e.next, source, name, program
          dependencies := .ofActions program.actions.toList
          functions := e.functions, handlerCapacity := e.handlerCapacity }
  (result.unterminated.map .unterminatedTag, template)

/-- Compiles a source with the engine as it is. -/
def build (e : Engine) (name : Option String) (source : String) :
    List Warning × Except Error Template :=
  if e.legacy = .detect ∧ DoubleBrace.detect source.toList then
    match DoubleBrace.normalize source with
    | .error err => ([.legacyDialect name], .error (err.named name))
    | .ok source =>
      let (warnings, template) := e.compileSource name source
      (.legacyDialect name :: warnings, template)
  else e.compileSource name source

/-- Compiles a source anew. -/
def compileUncached (e : Engine) (name : Option String) (source : String) :
    (List Warning × Except Error Template) × Engine :=
  (e.build name source, { e with next := e.next + 1 })

/-- The template of a source: the cached one, or a new one that is cached if it compiles. -/
def compileCached (e : Engine) (name : Option String) (source : String) :
    (List Warning × Except Error Template) × Engine :=
  match e.cache.lookup source with
  | some template => (([], .ok template), e)
  | none =>
    let ((warnings, result), e) := e.compileUncached name source
    match result with
    | .ok template =>
      ((warnings, .ok template), { e with cache := (source, template) :: e.cache })
    | .error err => ((warnings, .error err), e)

/-- How many templates are cached. -/
def cached (e : Engine) : Nat := e.cache.length

/-- The inspection text of an engine. -/
def inspect (e : Engine) : String :=
  "Engine \x7b functions: \x7b" ++ ", ".intercalate (e.functions.names.map Text.quoted)
    ++ "\x7d, legacy: " ++ (match e.legacy with
      | .detect => "Detect"
      | .disabled => "Disabled")
    ++ ", handler_capacity: " ++ Decimal.natText e.handlerCapacity ++ ", cached: "
    ++ Decimal.natText e.cached ++ " \x7d"

end Engine

end LiveTemplate
