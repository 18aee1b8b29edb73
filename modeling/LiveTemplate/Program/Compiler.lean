/-
From tokens to a program. A builder keeps the open elements and the open blocks, each of which
remembers how many elements were open when it began; jumps forward are filled in when their
targets are reached.
-/
import LiveTemplate.Expr.Parser
import LiveTemplate.Expr.Reads
import LiveTemplate.Markup.Directive
import LiveTemplate.Markup.Tag
import LiveTemplate.Markup.Token
import LiveTemplate.Program.Basic

namespace LiveTemplate

open Markup Text

/-- The blocks of a template. -/
inductive BlockKind where
  | ifBlock
  | unlessBlock
  | eachBlock
  | forBlock
deriving Repr, DecidableEq

namespace BlockKind

/-- How messages call the directive that opens a block. -/
def opener : BlockKind → String
  | ifBlock => "`\x7b#if\x7d`"
  | unlessBlock => "`\x7b#unless\x7d`"
  | eachBlock => "`\x7b#each\x7d`"
  | forBlock => "`\x7b#for\x7d`"

/-- How messages call the directive that closes a block. -/
def closer : BlockKind → String
  | ifBlock => "`\x7b/if\x7d`"
  | unlessBlock => "`\x7b/unless\x7d`"
  | eachBlock => "`\x7b/each\x7d`"
  | forBlock => "`\x7b/for\x7d`"

/-- Whether a block may have else clauses. -/
def isConditional : BlockKind → Bool
  | ifBlock | unlessBlock => true
  | eachBlock | forBlock => false

end BlockKind

/-- An element whose closing tag has not come yet. -/
structure OpenElement where
  name : String
  span : Span

/-- A block whose end has not come yet. -/
structure OpenBlock where
  kind : BlockKind
  action : ActionId
  /-- The instruction that opens the block. -/
  opened : Nat
  /-- How many elements were open when the block began. -/
  depth : Nat
  span : Span
  /-- The instruction whose target is the next clause or the end. -/
  pending : Option Nat
  /-- The jumps from the ends of the clauses to the end of the block. -/
  exits : List Nat
  hasElse : Bool
  /-- How many loop variables the block brought into scope. -/
  names : Nat

/-- A program under construction. Elements and blocks are listed innermost first. -/
structure Builder where
  instrs : Array Instr
  actions : Array Action
  elements : List OpenElement
  blocks : List OpenBlock
  /-- The loop variables in scope, innermost last. -/
  loopVars : List String

namespace Builder

def empty : Builder := ⟨#[], #[], [], [], []⟩

/-- The target of a jump that is not known yet. -/
def pendingTarget : Nat := 0

/-- Appends an instruction. -/
def push (b : Builder) (instr : Instr) : Builder := { b with instrs := b.instrs.push instr }

/-- Sends a jump, branch or loop step to a position. -/
def retarget (target : Nat) : Instr → Instr
  | .jump _ => .jump target
  | .iterate _ => .iterate target
  | .branch test negate _ => .branch test negate target
  | instr => instr

/-- Lets the jump at a position go to the next instruction. -/
def patch (b : Builder) (pc : Nat) : Builder :=
  { b with instrs := b.instrs.modify pc (retarget b.instrs.size) }

/-- Notes where the block that an instruction opens ends. -/
def setStop (stop : Nat) : Instr → Instr
  | .openConditional action _ => .openConditional action stop
  | .openLoop action binding collection _ => .openLoop action binding collection stop
  | instr => instr

/-- Appends the instruction that closes a block and tells the one that opened it. -/
def closeWith (b : Builder) (opened : Nat) (instr : Instr) : Builder :=
  { b with instrs := (b.instrs.push instr).modify opened (setStop b.instrs.size) }

/-- Adds an action governed by an expression. -/
def addAction (b : Builder) (kind : ActionKind) (span : Span) (e : Expr) : ActionId × Builder :=
  let reads := e.reads
  (b.actions.size, { b with actions := b.actions.push ⟨kind, span, reads.fields, reads.any⟩ })

/-- Adds the reads of another expression to an action. -/
def addReads (b : Builder) (id : ActionId) (e : Expr) : Builder :=
  let reads := e.reads
  { b with
    actions := b.actions.modify id fun a =>
      { a with fields := a.fields.union reads.fields, any := a.any || reads.any } }

/-- The names that expressions are read with at this place. -/
def scope (b : Builder) (knows : String → Bool) : NameScope := ⟨knows, b.loopVars, []⟩

/-- Reads an expression. -/
def expr (b : Builder) (knows : String → Bool) (region : Region) : Except Fault Expr := do
  (← Expr.parse region).resolve (b.scope knows)

/-- Reads an event handler. -/
def handler (b : Builder) (knows : String → Bool) (region : Region) :
    Except Fault HandlerSource := do
  (← Expr.parse region).resolveHandler (b.scope knows)

/-! ## Texts and tags -/

/-- Appends literal markup; blank text with a line feed in it is dropped. -/
def addText (b : Builder) (text : List Char) : Builder :=
  if text.all isBlank && text.contains '\n' then b else b.push (.createText (String.ofList text))

/-- The static value of an attribute. -/
def staticValue? (tag : Tag) (name : String) : Option String :=
  tag.attributes.findSome? fun a => match a.value with
    | .plain v => if a.name = name then some v else none
    | _ => none

/-- The key that preserves an element: the name of a slot, or the key attribute. -/
def elementKey (tag : Tag) : Option String :=
  if tag.name = "slot" then some ("slot:" ++ (staticValue? tag "name").getD "default")
  else staticValue? tag "key"

/-- Appends one attribute of the element that was started last. -/
def addAttribute (knows : String → Bool) (b : Builder) (a : Attribute) : Except Fault Builder :=
  match a.value with
  | .plain value => .ok (b.push (.setAttribute a.name value))
  | .flag => .ok (b.push (.setFlag a.name))
  | .dynamic region =>
    match a.event? with
    | some event => do
      let handler ← b.handler knows region
      return b.push (.addListener event handler)
    | none => do
      let e ← b.expr knows region
      let (action, b) := b.addAction .property region.span e
      return b.push (.setAttributeExpr a.name e action)

/-- Starts an element. -/
def openTag (knows : String → Bool) (b : Builder) (tag : Tag) : Except Fault Builder := do
  let b := b.push (.createElement tag.name (elementKey tag))
  let b ← tag.attributes.foldlM (addAttribute knows) b
  if tag.isSelfClosing || isVoid tag.name then return b.push .appendChild
  else return { b with elements := ⟨tag.name, tag.span⟩ :: b.elements }

/-- Ends the innermost element, which has to belong to the innermost block. -/
def closeTag (b : Builder) (tag : Tag) : Except Fault Builder :=
  let depth := (b.blocks.head?.map OpenBlock.depth).getD 0
  match b.elements with
  | element :: rest =>
    if b.elements.length ≤ depth then .error ⟨.unexpectedClosingTag tag.name, tag.span⟩
    else if element.name = tag.name then .ok ({ b with elements := rest }.push .appendChild)
    else .error ⟨.mismatchedTag element.name tag.name, tag.span⟩
  | [] => .error ⟨.unexpectedClosingTag tag.name, tag.span⟩

/-! ## Blocks -/

/-- Checks that no element begun in a block is open. -/
def checkElements (b : Builder) (block : OpenBlock) : Except Fault Unit :=
  match b.elements.reverse[block.depth]? with
  | some element => .error ⟨.unclosedElement element.name block.kind.opener, element.span⟩
  | none => .ok ()

/-- Writes a value. -/
def addEmit (knows : String → Bool) (b : Builder) (region : Region) (mode : EmitMode) :
    Except Fault Builder := do
  let e ← b.expr knows region
  let (action, b) := b.addAction .text region.span e
  return b.push (.emit e mode action)

/-- Begins a conditional. -/
def openConditional (knows : String → Bool) (b : Builder) (kind : BlockKind) (test : Region)
    (span : Span) : Except Fault Builder := do
  let e ← b.expr knows test
  let (action, b) := b.addAction .conditional test.span e
  let opened := b.instrs.size
  let b := (b.push (.openConditional action pendingTarget)).push
    (.branch e (kind == .unlessBlock) pendingTarget)
  let block : OpenBlock :=
    { kind, action, opened, depth := b.elements.length, span, pending := some (opened + 1)
      exits := [], hasElse := false, names := 0 }
  return { b with blocks := block :: b.blocks }

/-- The innermost block, which has to allow an else clause here. -/
def elseBlock (b : Builder) (directive : Directive) (span : Span) : Except Fault OpenBlock :=
  match b.blocks with
  | block :: _ =>
    if block.kind.isConditional && !block.hasElse then (b.checkElements block).map fun _ => block
    else .error ⟨.unexpectedDirective directive.describe, span⟩
  | [] => .error ⟨.unexpectedDirective directive.describe, span⟩

/-- Ends a clause: jumps to the end of the block and lets the last test lead here. -/
def endClause (b : Builder) (block : OpenBlock) : Builder × OpenBlock :=
  let exit := b.instrs.size
  let b := b.push (.jump pendingTarget)
  let b := match block.pending with
    | some pc => b.patch pc
    | none => b
  (b, { block with exits := block.exits ++ [exit], pending := none })

/-- Replaces the innermost block. -/
def setBlock (b : Builder) (block : OpenBlock) : Builder :=
  { b with blocks := block :: b.blocks.drop 1 }

/-- Begins a further tested clause. -/
def addElseIf (knows : String → Bool) (b : Builder) (directive : Directive) (test : Region)
    (span : Span) : Except Fault Builder := do
  let block ← b.elseBlock directive span
  let e ← b.expr knows test
  let (b, block) := (b.addReads block.action e).endClause block
  let pc := b.instrs.size
  return (b.push (.branch e false pendingTarget)).setBlock { block with pending := some pc }

/-- Begins the last clause. -/
def addElse (b : Builder) (directive : Directive) (span : Span) : Except Fault Builder := do
  let block ← b.elseBlock directive span
  let (b, block) := b.endClause block
  return b.setBlock { block with hasElse := true }

/-- Takes the innermost block, which has to be of the given kind and to have no open element. -/
def popBlock (b : Builder) (kind : BlockKind) (directive : Directive) (span : Span) :
    Except Fault (OpenBlock × Builder) :=
  match b.blocks with
  | [] => .error ⟨.noOpenBlock directive.describe, span⟩
  | block :: rest =>
    if block.kind = kind then
      (b.checkElements block).map fun _ => (block, { b with blocks := rest })
    else .error ⟨.mismatchedBlock block.kind.closer directive.describe, span⟩

/-- Ends a conditional. -/
def closeConditional (b : Builder) (kind : BlockKind) (directive : Directive) (span : Span) :
    Except Fault Builder := do
  let (block, b) ← b.popBlock kind directive span
  let b := (block.pending.toList ++ block.exits).foldl patch b
  return b.closeWith block.opened .closeConditional

/-- Begins a loop. -/
def openLoop (knows : String → Bool) (b : Builder) (kind : BlockKind) (collection : Region)
    (binding : LoopBinding) (span : Span) : Except Fault Builder := do
  let e ← b.expr knows collection
  let (action, b) := b.addAction .loop collection.span e
  let opened := b.instrs.size
  let b := (b.push (.openLoop action binding e pendingTarget)).push (.iterate pendingTarget)
  let block : OpenBlock :=
    { kind, action, opened, depth := b.elements.length, span, pending := some (opened + 1)
      exits := [], hasElse := false, names := binding.names.length }
  return { b with blocks := block :: b.blocks, loopVars := b.loopVars ++ binding.names }

/-- Ends a loop: goes back to its step, which leads here when there is no item left. -/
def closeLoop (b : Builder) (kind : BlockKind) (directive : Directive) (span : Span) :
    Except Fault Builder := do
  let (block, b) ← b.popBlock kind directive span
  let step := block.opened + 1
  let b := (b.push (.jump step)).patch step
  let b := b.closeWith block.opened .closeLoop
  return { b with loopVars := b.loopVars.take (b.loopVars.length - block.names) }

/-- Adds a braced part; `span` is that of its inside. -/
def addDirective (knows : String → Bool) (b : Builder) (directive : Directive) (span : Span) :
    Except Fault Builder :=
  match directive with
  | .ifOpen test => b.openConditional knows .ifBlock test span
  | .unlessOpen test => b.openConditional knows .unlessBlock test span
  | .elseIf test => b.addElseIf knows directive test span
  | .elseOnly => b.addElse directive span
  | .eachOpen collection binding => b.openLoop knows .eachBlock collection binding span
  | .forOpen binding collection => b.openLoop knows .forBlock collection binding span
  | .ifClose => b.closeConditional .ifBlock directive span
  | .unlessClose => b.closeConditional .unlessBlock directive span
  | .eachClose => b.closeLoop .eachBlock directive span
  | .forClose => b.closeLoop .forBlock directive span
  | .html e => b.addEmit knows e .html
  | .json e => b.addEmit knows e .json
  | .expression e => b.addEmit knows e .text

/-! ## Programs -/

/-- Adds a token of a source. A declaration is kept as it is. -/
def addToken (knows : String → Bool) (source : List Char) (b : Builder) :
    Markup.Token → Except Fault Builder
  | .text region | .unterminated region => .ok (b.addText region.text)
  | .tag region =>
    if region.text.take 2 = ['<', '!'] then .ok (b.push (.createText region.toString))
    else do
      let tag ← Tag.parse region (dropBytes (region.stop - 1) source)
      if tag.isClosing then b.closeTag tag else b.openTag knows tag
  | .braced region => do b.addDirective knows (← Directive.parse region) region.span

/-- The finished program. No block may be open; open elements end here. -/
def finish (b : Builder) : Except Fault Program :=
  match b.blocks with
  | block :: _ => .error ⟨.unclosedBlock block.kind.opener, block.span⟩
  | [] =>
    .ok ⟨b.instrs ++ (List.replicate b.elements.length Instr.appendChild).toArray, b.actions⟩

end Builder

/-- What compiling a source brings: the offsets of tags that never end, and the program or the
first fault. -/
structure Compilation where
  unterminated : List Nat
  program : Except Fault Program

/-- Compiles a source with the functions known by name. Faults of the tokens themselves count
only after those of the tokens before them. -/
def compile (knows : String → Bool) (source : String) : Compilation :=
  let chars := source.toList
  let (tokens, fault) := Markup.tokens chars
  match tokens.foldlM (Builder.addToken knows chars) Builder.empty with
  | .error fault => ⟨[], .error fault⟩
  | .ok b =>
    let unterminated := tokens.filterMap fun
      | .unterminated region => some region.start
      | _ => none
    match fault with
    | some fault => ⟨unterminated, .error fault⟩
    | none => ⟨unterminated, b.finish⟩

end LiveTemplate
