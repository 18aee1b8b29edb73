/-
What the names of an expression refer to. Loop variables and arrow parameters come first; any
other name is the state, the props or a field of the component. A bare call is one of a known
function or else of a component method, and a call through a namespace has to name a known
function.
-/
import LiveTemplate.Error
import LiveTemplate.Expr.Basic
import LiveTemplate.Text.Names

namespace LiveTemplate

/-- The names an expression is read with. -/
structure NameScope where
  /-- Whether a function of this name is known. -/
  knows : String → Bool
  /-- The variables of the loops around, innermost last. -/
  loopVars : List String
  /-- The parameters of the arrow function around. -/
  params : List String

/-- The names through which functions can be called as members. -/
def namespaces : List String := ["Math", "JSON", "Object", "Array", "Number", "String"]

/-- The part of the component that a name stands for. -/
def Root.named (name : String) : Root :=
  if name = "state" then .state else if name = "props" then .props else .field name

namespace NameScope

/-- Whether a name is a loop variable or a parameter. -/
def binds (scope : NameScope) (name : String) : Bool :=
  scope.params.contains name || scope.loopVars.contains name

/-- What a name refers to. -/
def root (scope : NameScope) (name : String) : Root :=
  if scope.binds name then .bound name else .named name

end NameScope

mutual

/-- The expression with its names resolved. -/
def Expr.resolve (scope : NameScope) : Expr → Except Fault Expr
  | .literal s v => .ok (.literal s v)
  | .root s r => .ok (.root s r)
  | .template s parts => (resolveParts scope parts).map (.template s)
  | .self s => .ok (.root s .component)
  | .name s n => .ok (.root s (scope.root n))
  | .member s (.self _) p false => .ok (.root s (.named p))
  | .member s o p optional => return .member s (← o.resolve scope) p optional
  | .index s o i optional => return .index s (← o.resolve scope) (← i.resolve scope) optional
  | .call s (.name at_ n) args => do
    let args ← resolveAll scope args
    if scope.binds n then throw ⟨.notAFunction n, at_⟩
    else if scope.knows n then return .function s n args
    else return .method s n args
  | .call s (.member _ (.self _) p false) args => return .method s p (← resolveAll scope args)
  | .call s (.member at_ (.name t n) p optional) args => do
    let args ← resolveAll scope args
    if !scope.binds n && namespaces.contains n then
      let full := n ++ "." ++ p
      if scope.knows full then return .function s full args
      else throw ⟨.unknownFunction full, at_⟩
    else return .call s (.member at_ (.root t (scope.root n)) p optional) args
  | .call s (.member at_ o p optional) args => do
    let args ← resolveAll scope args
    return .call s (.member at_ (← o.resolve scope) p optional) args
  | .call _ callee args => do
    let _ ← resolveAll scope args
    throw ⟨.unnamedCallee, callee.span⟩
  | .method s n args => return .method s n (← resolveAll scope args)
  | .function s n args => return .function s n (← resolveAll scope args)
  | .unary s op e => return .unary s op (← e.resolve scope)
  | .binary s op l r => return .binary s op (← l.resolve scope) (← r.resolve scope)
  | .conditional s c t e =>
    return .conditional s (← c.resolve scope) (← t.resolve scope) (← e.resolve scope)
  | .array s items => return .array s (← resolveAll scope items)
  | .object s entries => return .object s (← resolveEntries scope entries)
  | .arrow s _ _ => throw ⟨.misplacedArrow, s⟩

def resolveAll (scope : NameScope) : List Expr → Except Fault (List Expr)
  | [] => .ok []
  | e :: rest => return (← e.resolve scope) :: (← resolveAll scope rest)

def resolveEntries (scope : NameScope) : List (String × Expr) → Except Fault (List (String × Expr))
  | [] => .ok []
  | (k, e) :: rest => return (k, ← e.resolve scope) :: (← resolveEntries scope rest)

def resolveParts (scope : NameScope) : List TemplatePart → Except Fault (List TemplatePart)
  | [] => .ok []
  | .text t :: rest => return .text t :: (← resolveParts scope rest)
  | .hole e :: rest => return .hole (← e.resolve scope) :: (← resolveParts scope rest)

end

/-! ## Handlers -/

mutual

/-- The loop variables and parameters that a resolved expression mentions. -/
def Expr.boundNames : Expr → Names
  | .root _ (.bound n) => [n]
  | .literal .. | .root .. | .name .. | .self _ => []
  | .template _ parts => boundNamesParts parts
  | .member _ o _ _ => o.boundNames
  | .index _ o i _ => o.boundNames.union i.boundNames
  | .call _ callee args => callee.boundNames.union (boundNamesAll args)
  | .method _ _ args | .function _ _ args => boundNamesAll args
  | .unary _ _ e => e.boundNames
  | .binary _ _ l r => l.boundNames.union r.boundNames
  | .conditional _ c t e => (c.boundNames.union t.boundNames).union e.boundNames
  | .array _ items => boundNamesAll items
  | .object _ entries => boundNamesEntries entries
  | .arrow _ params body => body.boundNames.filter (!params.contains ·)

def boundNamesAll : List Expr → Names
  | [] => []
  | e :: rest => e.boundNames.union (boundNamesAll rest)

def boundNamesEntries : List (String × Expr) → Names
  | [] => []
  | (_, e) :: rest => e.boundNames.union (boundNamesEntries rest)

def boundNamesParts : List TemplatePart → Names
  | [] => []
  | .text _ :: rest => boundNamesParts rest
  | .hole e :: rest => e.boundNames.union (boundNamesParts rest)

end

/-- An event handler with its names resolved, and the loop variables it reads. -/
structure HandlerSource where
  expr : Expr
  locals : Names

/-- Resolves an event handler. It may be an arrow function, whose first parameter is the event. -/
def Expr.resolveHandler (scope : NameScope) : Expr → Except Fault HandlerSource
  | .arrow s params body => do
    let body ← body.resolve { scope with params }
    let expr := .arrow s params body
    return ⟨expr, expr.boundNames⟩
  | e => do
    let e ← e.resolve scope
    return ⟨e, e.boundNames⟩

/-! ## Substitution -/

/-- Values for loop variables. -/
abbrev Bindings := List (String × Value)

mutual

/-- The expression with literals in place of variables; arrow parameters hide variables of the
same name. -/
def Expr.substitute (values : Bindings) : Expr → Expr
  | .root s (.bound n) => match values.lookup n with
    | some v => .literal s v
    | none => .root s (.bound n)
  | .literal s v => .literal s v
  | .root s r => .root s r
  | .name s n => .name s n
  | .self s => .self s
  | .template s parts => .template s (substituteParts values parts)
  | .member s o p q => .member s (o.substitute values) p q
  | .index s o i q => .index s (o.substitute values) (i.substitute values) q
  | .call s callee args => .call s (callee.substitute values) (substituteAll values args)
  | .method s n args => .method s n (substituteAll values args)
  | .function s n args => .function s n (substituteAll values args)
  | .unary s op e => .unary s op (e.substitute values)
  | .binary s op l r => .binary s op (l.substitute values) (r.substitute values)
  | .conditional s c t e =>
    .conditional s (c.substitute values) (t.substitute values) (e.substitute values)
  | .array s items => .array s (substituteAll values items)
  | .object s entries => .object s (substituteEntries values entries)
  | .arrow s params body =>
    .arrow s params (body.substitute (values.filter fun b => !params.contains b.1))

def substituteAll (values : Bindings) : List Expr → List Expr
  | [] => []
  | e :: rest => e.substitute values :: substituteAll values rest

def substituteEntries (values : Bindings) : List (String × Expr) → List (String × Expr)
  | [] => []
  | (k, e) :: rest => (k, e.substitute values) :: substituteEntries values rest

def substituteParts (values : Bindings) : List TemplatePart → List TemplatePart
  | [] => []
  | .text t :: rest => .text t :: substituteParts values rest
  | .hole e :: rest => .hole (e.substitute values) :: substituteParts values rest

end

end LiveTemplate
