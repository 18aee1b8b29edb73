/-
Compiled templates: a flat list of instructions with jumps, and the actions that can be run again
one by one.
-/
import LiveTemplate.Expr.Printer
import LiveTemplate.Expr.Resolve

namespace LiveTemplate

/-- A part of a program that can be run again: its number in the order of the source. -/
abbrev ActionId := Nat

/-- An action as it is written. -/
def ActionId.print (id : ActionId) : String := "#" ++ Decimal.natText id

inductive ActionKind where
  | conditional
  | loop
  | property
  | text
deriving Repr, DecidableEq

/-- What an action is and which fields of the state its governing expression reads. -/
structure Action where
  kind : ActionKind
  span : Span
  fields : Names
  any : Bool

/-- How a value is written. -/
inductive EmitMode where
  /-- As escaped text. -/
  | text
  /-- As markup. -/
  | html
  /-- As indented JSON in a `<pre>` element. -/
  | json
deriving Repr, DecidableEq

/-- Instructions. Targets and ends are positions in the program. -/
inductive Instr where
  /-- Starts an element and makes it the current one. -/
  | createElement (tag : String) (key : Option String)
  | setAttribute (name value : String)
  | setFlag (name : String)
  | setAttributeExpr (name : String) (expr : Expr) (action : ActionId)
  | addListener (event : String) (handler : HandlerSource)
  /-- Ends the current element and appends it to the one around it. -/
  | appendChild
  | createText (text : String)
  | emit (expr : Expr) (mode : EmitMode) (action : ActionId)
  /-- Starts a chain of branches, which ends at `stop`. -/
  | openConditional (action : ActionId) (stop : Nat)
  /-- Goes to the target if the test does not hold. -/
  | branch (test : Expr) (negate : Bool) (target : Nat)
  | jump (target : Nat)
  | closeConditional
  /-- Starts a loop, which ends at `stop`. -/
  | openLoop (action : ActionId) (binding : LoopBinding) (collection : Expr) (stop : Nat)
  /-- Goes on to the next item, or to the target if there is none. -/
  | iterate (target : Nat)
  | closeLoop

structure Program where
  instrs : Array Instr
  actions : Array Action

/-! ## Listing -/

/-- An expression between braces. -/
def bracedExpr (e : Expr) : String := "\x7b" ++ e.print ++ "\x7d"

/-- One instruction as it is listed. -/
def Instr.print : Instr → String
  | createElement tag none => "create_element <" ++ tag ++ ">"
  | createElement tag (some key) => "create_element <" ++ tag ++ "> key=" ++ Text.quoted key
  | setAttribute name value => "set_attribute " ++ name ++ "=" ++ Text.quoted value
  | setFlag name => "set_flag " ++ name
  | setAttributeExpr name e action =>
    "set_attribute " ++ name ++ "=" ++ bracedExpr e ++ " " ++ action.print
  | addListener event handler => "add_listener " ++ event ++ " " ++ bracedExpr handler.expr
  | appendChild => "append_child"
  | createText text => "create_text " ++ Text.quoted text
  | emit e mode action =>
    (match mode with
      | .text => "emit_text "
      | .html => "emit_html "
      | .json => "emit_json ") ++ bracedExpr e ++ " " ++ action.print
  | openConditional action stop =>
    "open_conditional " ++ action.print ++ " end=" ++ Decimal.natText stop
  | branch test negate target =>
    (if negate then "branch_if " else "branch_unless ") ++ bracedExpr test ++ " -> "
      ++ Decimal.natText target
  | jump target => "jump -> " ++ Decimal.natText target
  | closeConditional => "close_conditional"
  | openLoop action binding collection stop =>
    "open_loop " ++ binding.print ++ " in " ++ bracedExpr collection ++ " " ++ action.print
      ++ " end=" ++ Decimal.natText stop
  | iterate target => "iterate else -> " ++ Decimal.natText target
  | closeLoop => "close_loop"

/-- The lines of a listing from position `pc` on, with positions padded to `width`. -/
def listingFrom (width pc : Nat) : List Instr → String
  | [] => ""
  | instr :: rest =>
    let number := Decimal.natText pc
    String.ofList (List.replicate (width - number.length) ' ') ++ number ++ "  " ++ instr.print
      ++ "\n" ++ listingFrom width (pc + 1) rest

/-- The listing of a program, one instruction a line. -/
def Program.print (p : Program) : String :=
  listingFrom (Decimal.natText (p.instrs.size - 1)).length 0 p.instrs.toList

end LiveTemplate
