/-
The values of expressions. Evaluation may call methods of the component, which may write the
state; what they wrote stays even where evaluation then fails. An optional access to null ends the
whole chain of accesses and calls it stands in.
-/
import LiveTemplate.Functions.Methods
import LiveTemplate.Scope
import LiveTemplate.State

namespace LiveTemplate

/-- A method of a component: it may read and write the state, and it may fail. -/
abbrev Method := List Value → Effect Value

/-- What an expression is evaluated with, the state apart. -/
structure Env where
  /-- The text that the regions of the expression refer to. -/
  source : String
  functions : String → Option Function
  props : Value
  methods : String → Option Method
  scope : Scope

namespace Env

/-- Fails at a region. -/
def fail {α : Type} (env : Env) (cause : Cause) (span : Span) : Effect α :=
  throw (.located cause env.source span)

/-- Runs a computation whose errors, if they have no place, get the given region. -/
def within {α : Type} (env : Env) (span : Span) (effect : Effect α) : Effect α := fun s =>
  let (result, s) := effect s
  (result.mapError (Error.locate env.source span), s)

/-- The value of a root. -/
def root (env : Env) (span : Span) : Root → Effect Value
  | .state => return (← get).value
  | .props => return env.props
  | .component => do
    let entries := ((← get).entries).foldl (fun m (k, v) => Entries.insert k v m)
      (env.props.map?.getD [])
    State.alloc (Value.newMap entries)
  | .bound name => match env.scope.find? name with
    | some var => return var.value
    | none => env.fail (.undefinedName name) span
  | .field name => do
    match (← get).value.get? name <|> env.props.get? name with
    | some v => return v
    | none => env.fail (.undefinedName name) span

/-- Calls a method of the component. -/
def callMethod (env : Env) (name : String) (args : List Value) (span : Span) : Effect Value :=
  match env.methods name with
  | some method => env.within span (method args)
  | none => env.fail (.unknownMethod name) span

/-- Runs a function, which may make collections. -/
def callFunction (env : Env) (call : ExceptT Error Fresh Value) (span : Span) : Effect Value :=
  env.within span fun s =>
    let (result, supply) := call s.supply
    (result, { s with supply })

/-- The value of a property. -/
def member (env : Env) (object : Value) (property : String) (span : Span) : Effect Value :=
  match object with
  | .null => env.fail (.propertyOfNull property) span
  | .map _ entries => return (Entries.get? entries property).getD .null
  | v => return (v.property? property).getD .null

/-- The position that a value names: an integer or a whole float that is not negative. -/
def position? : Value → Option Nat
  | .int i => if 0 ≤ i then some i.toInt.toNat else none
  | .float x => if Decimal.isWhole x && x ≥ 0.0 then some (Decimal.truncate x).toNat else none
  | _ => none

/-- The value at an index: a key of a map, a position in a list or text, or the name of a
property. -/
def index (env : Env) (object i : Value) (span : Span) : Effect Value :=
  match object, position? i with
  | .null, _ => env.fail (.indexOfNull i.display) span
  | .map _ entries, _ => return (Entries.get? entries i.display).getD .null
  | .list _ items, some n => return (items[n]?).getD .null
  | .text s, some n => return ((s.toList[n]?).map fun c => .text (String.ofList [c])).getD .null
  | v, none => match i with
    | .text name => return (v.property? name).getD .null
    | _ => return .null
  | _, _ => return .null

end Env

/-! ## Operators -/

/-- Whether a value makes an addition a concatenation. -/
def Value.isTextual : Value → Bool
  | .text _ | .list .. | .map .. => true
  | _ => false

/-- The order of two values: texts by their characters, others as numbers. -/
def Value.compare? (a b : Value) : Option Ordering :=
  match a, b with
  | .text s, .text t => some (if s < t then .lt else if s = t then .eq else .gt)
  | a, b =>
    let x := a.toNumber
    let y := b.toNumber
    if x < y then some .lt else if x == y then some .eq else if x > y then some .gt else none

/-- An operator on two values. -/
def BinaryOp.apply (op : BinaryOp) (a b : Value) : Value :=
  match op with
  | add =>
    if a.isTextual || b.isTextual then .text (a.display ++ b.display)
    else .number (a.toNumber + b.toNumber)
  | sub => .number (a.toNumber - b.toNumber)
  | mul => .number (a.toNumber * b.toNumber)
  | div => .number (a.toNumber / b.toNumber)
  | rem => .number (Decimal.remainder a.toNumber b.toNumber)
  | lt => .bool (a.compare? b == some .lt)
  | gt => .bool (a.compare? b == some .gt)
  | le => .bool (a.compare? b == some .lt || a.compare? b == some .eq)
  | ge => .bool (a.compare? b == some .gt || a.compare? b == some .eq)
  | eq => .bool (a.looseEq b)
  | ne => .bool (!a.looseEq b)
  | strictEq => .bool (a.strictEq b)
  | strictNe => .bool (!a.strictEq b)
  | and => if a.truthy then b else a
  | or => if a.truthy then a else b
  | nullish => if a.isNull then b else a

/-- Whether the left operand alone decides the result. -/
def BinaryOp.decides (op : BinaryOp) (a : Value) : Bool :=
  match op with
  | and => !a.truthy
  | or => a.truthy
  | nullish => !a.isNull
  | _ => false

/-- A prefix operator on a value. -/
def UnaryOp.apply (op : UnaryOp) (v : Value) : Value :=
  match op with
  | not => .bool (!v.truthy)
  | neg => .number (-v.toNumber)
  | plus => .number v.toNumber
  | typeOf => .text v.typeName

/-! ## Evaluation -/

mutual

/-- The value of an expression, or nothing if an optional access ended the chain it is. -/
def Expr.chain (env : Env) : Expr → Effect (Option Value)
  | .literal _ v => return some v
  | .template _ parts => return some (.text (← chainParts env parts))
  | .name s n => env.fail (.undefinedName n) s
  | .self s => return some (← env.root s .component)
  | .root s r => return some (← env.root s r)
  | .member s o p optional => do
    match ← o.chain env with
    | none => return none
    | some v =>
      if optional && v.isNull then return none
      else return some (← env.member v p s)
  | .index s o i optional => do
    match ← o.chain env with
    | none => return none
    | some v =>
      if optional && v.isNull then return none
      else return some (← env.index v ((← i.chain env).getD .null) s)
  | .call _ (.member at_ o p optional) args => do
    match ← o.chain env with
    | none => return none
    | some v =>
      if optional && v.isNull then return none
      else if v.isNull then env.fail (.callOnNull p) at_
      else return some (← env.callFunction (v.callMethod p (← chainAll env args)) at_)
  | .call _ callee _ => env.fail .uncallable callee.span
  | .method s n args => return some (← env.callMethod n (← chainAll env args) s)
  | .function s n args => do
    let args ← chainAll env args
    match env.functions n with
    | some f => return some (← env.callFunction (f args) s)
    | none => env.fail (.missingFunction n) s
  | .unary _ op e => return some (op.apply ((← e.chain env).getD .null))
  | .binary _ op l r => do
    let a := (← l.chain env).getD .null
    if op.decides a then return some a
    else return some (op.apply a ((← r.chain env).getD .null))
  | .conditional _ c t e => do
    if ((← c.chain env).getD .null).truthy then return some ((← t.chain env).getD .null)
    else return some ((← e.chain env).getD .null)
  | .array _ items => do
    let items ← chainAll env items
    return some (← State.alloc (Value.newList items))
  | .object _ entries => do
    let entries ← chainEntries env entries
    return some (← State.alloc (Value.newMap (Entries.ofPairs entries)))
  | .arrow s _ _ => env.fail .arrowValue s

def chainAll (env : Env) : List Expr → Effect (List Value)
  | [] => return []
  | e :: rest => return (← e.chain env).getD .null :: (← chainAll env rest)

def chainEntries (env : Env) : List (String × Expr) → Effect (List (String × Value))
  | [] => return []
  | (k, e) :: rest => return (k, (← e.chain env).getD .null) :: (← chainEntries env rest)

def chainParts (env : Env) : List TemplatePart → Effect String
  | [] => return ""
  | .text t :: rest => return t ++ (← chainParts env rest)
  | .hole e :: rest => return ((← e.chain env).getD .null).display ++ (← chainParts env rest)

end

/-- The value of an expression. -/
def Expr.eval (env : Env) (e : Expr) : Effect Value :=
  return (← e.chain env).getD .null

/-- The variables for the parameters of an arrow function: the first is the event. -/
def eventVars (params : List String) (event : Value) : List Var :=
  match params with
  | [] => []
  | p :: rest => ⟨p, event, false⟩ :: rest.map (⟨·, .null, false⟩)

/-- Runs an event handler. An arrow function gets the event, a bare method name is called with
it, and anything else is evaluated. -/
def Expr.invoke (env : Env) (event : Value) : Expr → Effect Value
  | .arrow _ params body => body.eval { env with scope := env.scope ++ eventVars params event }
  | .root s (.field n) =>
    if (env.methods n).isSome then env.callMethod n [event] s
    else (Expr.root s (.field n)).eval env
  | e => e.eval env

end LiveTemplate
