/-
Rendered trees: elements, texts, markup, and the blocks that can be rendered again in place.
-/
import LiveTemplate.Program.Basic
import LiveTemplate.Registry
import LiveTemplate.Scope

namespace LiveTemplate

/-- What is bound to an event: code, or the token of a handler with captured values. -/
inductive Handler where
  | inline (code : String)
  | token (token : Registry.Token)
deriving Repr, DecidableEq

/-- A handler as it stands in a page. -/
def Handler.print : Handler → String
  | inline code => code
  | token t => "handlers.invoke(" ++ Decimal.natText t ++ ", event)"

/-- A handler together with the loop variables it captured. -/
structure CapturedHandler where
  source : HandlerSource
  /-- The captured variables by ascending name. -/
  locals : Bindings

structure EventBinding where
  event : String
  handler : Handler
deriving Repr, DecidableEq

/-- A dynamic attribute: its instruction and the variables to evaluate it with again. -/
structure AttributeBinding where
  action : ActionId
  pc : Nat
  scope : Scope

/-- An element without its children. An attribute without a value is a flag. -/
structure Element where
  tag : String
  key : Option String
  attrs : List (String × Option String)
  events : List EventBinding
  bindings : List AttributeBinding

/-- The place of an action in a tree: its instructions and the variables around it. -/
structure Anchor where
  action : ActionId
  start : Nat
  stop : Nat
  scope : Scope

inductive Node where
  | element (element : Element) (children : List Node)
  /-- Text that is escaped in a page. -/
  | text (text : String)
  /-- Markup that is written as it is. -/
  | html (markup : String)
  | block (anchor : Anchor) (children : List Node)

namespace Element

/-- An element with neither attributes nor events. -/
def plain (tag : String) (key : Option String) : Element := ⟨tag, key, [], [], []⟩

/-- The value of an attribute. -/
def attr? (e : Element) (name : String) : Option (Option String) :=
  e.attrs.lookup name

/-- The attributes with the first one of a name replaced or, for nothing, removed; a new one is
added at the end. -/
def setIn (name : String) (value : Option (Option String)) :
    List (String × Option String) → List (String × Option String)
  | [] => value.toList.map (name, ·)
  | (n, v) :: rest =>
    if n = name then match value with
      | some value => (n, value) :: rest
      | none => rest
    else (n, v) :: setIn name value rest

/-- Sets, replaces or removes an attribute in its place. -/
def setAttr (e : Element) (name : String) (value : Option (Option String)) : Element :=
  { e with attrs := setIn name value e.attrs }

end Element

/-! ## Walks -/

mutual

/-- The elements of a node with their children, outer before inner. -/
def Node.elements : Node → List (Element × List Node)
  | .element e children => (e, children) :: elementsAll children
  | .text _ | .html _ => []
  | .block _ children => elementsAll children

/-- The elements of a list of nodes, in order. -/
def elementsAll : List Node → List (Element × List Node)
  | [] => []
  | n :: rest => n.elements ++ elementsAll rest

end

mutual

/-- The blocks in a node with their children, outer before inner. -/
def Node.blocks : Node → List (Anchor × List Node)
  | .element _ children => blocksAll children
  | .text _ | .html _ => []
  | .block a children => (a, children) :: blocksAll children

/-- The blocks in a list of nodes, in order. -/
def blocksAll : List Node → List (Anchor × List Node)
  | [] => []
  | n :: rest => n.blocks ++ blocksAll rest

end

mutual

/-- The texts and markup in a node, joined. -/
def Node.textContent : Node → String
  | .element _ children => textContentAll children
  | .text t | .html t => t
  | .block _ children => textContentAll children

def textContentAll : List Node → String
  | [] => ""
  | n :: rest => n.textContent ++ textContentAll rest

end

/-- The keys of the elements to be preserved, in order. -/
def preservedKeys (nodes : List Node) : List String :=
  (elementsAll nodes).filterMap (·.1.key)

/-- The event bindings, in order. -/
def eventsOf (nodes : List Node) : List EventBinding :=
  (elementsAll nodes).flatMap (·.1.events)

/-- The tokens of the handlers, in order. -/
def tokensOf (nodes : List Node) : List Registry.Token :=
  (eventsOf nodes).filterMap fun e => match e.handler with
    | .token t => some t
    | .inline _ => none

/-- The elements with a tag name, in order. -/
def findAll (nodes : List Node) (tag : String) : List (Element × List Node) :=
  (elementsAll nodes).filter (·.1.tag == tag)

/-- The blocks of an action, in order. -/
def blocksOf (nodes : List Node) (action : ActionId) : List (Anchor × List Node) :=
  (blocksAll nodes).filter (·.1.action == action)

end LiveTemplate
