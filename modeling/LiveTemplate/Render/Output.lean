/-
The nodes that a run has made so far, with the elements that are still open.
-/
import LiveTemplate.Tree.Basic

namespace LiveTemplate

/-- The finished nodes, and the open elements with their children so far, innermost first. -/
structure Output where
  nodes : List Node
  stack : List (Element × List Node)

namespace Output

/-- Nothing made yet. -/
def empty : Output := ⟨[], []⟩

/-- Starts an element. -/
def openElement (e : Element) (out : Output) : Output :=
  { out with stack := (e, []) :: out.stack }

/-- Appends a node to the innermost open element. -/
def push (n : Node) (out : Output) : Output :=
  match out.stack with
  | [] => { out with nodes := out.nodes ++ [n] }
  | (e, children) :: outer => { out with stack := (e, children ++ [n]) :: outer }

/-- Changes the innermost open element; nothing if none is open. -/
def modify? (f : Element → Element) (out : Output) : Option Output :=
  match out.stack with
  | [] => none
  | (e, children) :: outer => some { out with stack := (f e, children) :: outer }

/-- Ends the innermost open element; nothing if none is open. -/
def close? (out : Output) : Option Output :=
  match out.stack with
  | [] => none
  | (e, children) :: outer => some (push (.element e children) { out with stack := outer })

/-- All nodes, where the elements that are still open end here. -/
def finish (out : Output) : List Node :=
  out.nodes
    ++ out.stack.foldl (fun inner (e, children) => [.element e (children ++ inner)]) []

end Output

end LiveTemplate
