/-
Unfinished templates. A draft is an outline with a hole at the place where a builder is writing:
the parts around the hole, innermost first, each with what was written before it, and the parts
written since the innermost one was opened. The code of a draft is what a builder has laid out so
far, with the targets that are not known yet, and the open elements and blocks of the builder can
be read off the parts around the hole.
-/
import LiveTemplate.Program.Compiler
import LiveTemplate.Proofs.Program.Outline

namespace LiveTemplate

open Markup

/-! ## Tokens that were read -/

/-- A token of a source after its inside was read. -/
inductive Piece where
  | text (text : List Char)
  | declaration (markup : String)
  | openTag (tag : Tag)
  | closeTag (tag : Tag)
  | directive (directive : Directive) (span : Span)
deriving DecidableEq

def Piece.ofToken (source : List Char) : Markup.Token → Except Fault Piece
  | .text region | .unterminated region => .ok (.text region.text)
  | .tag region =>
    if region.text.take 2 = ['<', '!'] then .ok (.declaration region.toString)
    else do
      let tag ← Tag.parse region (Text.dropBytes (region.stop - 1) source)
      return if tag.isClosing then .closeTag tag else .openTag tag
  | .braced region => return .directive (← Directive.parse region) region.span

def Builder.addPiece (knows : String → Bool) (b : Builder) : Piece → Except Fault Builder
  | .text text => .ok (b.addText text)
  | .declaration markup => .ok (b.push (.createText markup))
  | .openTag tag => b.openTag knows tag
  | .closeTag tag => b.closeTag tag
  | .directive directive span => b.addDirective knows directive span

theorem Builder.addToken_eq (knows : String → Bool) (source : List Char) (b : Builder) :
    ∀ token : Markup.Token,
      b.addToken knows source token = Piece.ofToken source token >>= b.addPiece knows
  | .text _ | .unterminated _ => rfl
  | .tag region => by
    rw [addToken, Piece.ofToken]
    split
    · rfl
    · cases Tag.parse region (Text.dropBytes (region.stop - 1) source) with
      | error fault => rfl
      | ok tag =>
        show (if tag.isClosing then _ else _) = addPiece knows b (if tag.isClosing then _ else _)
        split <;> rfl
  | .braced region => by
    rw [addToken, Piece.ofToken]
    cases Directive.parse region <;> rfl

/-! ## Parts with a hole -/

/-- A clause that another one follows. -/
structure PastClause where
  test : Expr
  negate : Bool
  body : List Item

/-- A part that was opened and not closed yet. -/
inductive Opening where
  | element (element : OpenElement) (key : Option String) (features : List Feature)
  /-- A conditional, the clauses before the current one, and the test of the current one unless it
  is the last. -/
  | chain (negated : Bool) (span : Span) (past : List PastClause) (current : Option (Expr × Bool))
  | loop (isFor : Bool) (span : Span) (binding : LoopBinding) (collection : Expr)

/-- A part around the hole with what was written before it. -/
structure Level where
  before : List Item
  opening : Opening

structure Draft where
  /-- The parts around the hole, innermost first. -/
  levels : List Level
  items : List Item

/-- The kind of a conditional. -/
def BlockKind.ofChain (negated : Bool) : BlockKind := if negated then .unlessBlock else .ifBlock

/-- The kind of a loop. -/
def BlockKind.ofLoop (isFor : Bool) : BlockKind := if isFor then .forBlock else .eachBlock

/-! ## Clauses before the current one -/

namespace PastClauses

def room : List PastClause → Place
  | [] => .start
  | c :: rest => .one + (Items.room c.body + .one) + room rest

/-- The code of the clauses, where the end of the conditional is at `stop`. -/
def code (p : Place) (stop : Nat) : List PastClause → List Instr
  | [] => []
  | c :: rest =>
    .branch c.test c.negate (p + (.one + (Items.room c.body + .one))).pc
      :: (Items.code (p + .one) c.body
        ++ .jump stop :: code (p + (.one + (Items.room c.body + .one))) stop rest)

/-- Where the jumps to the end of the conditional are. -/
def exits (p : Place) : List PastClause → List Nat
  | [] => []
  | c :: rest => (p + (.one + Items.room c.body)).pc :: exits (p + (.one + (Items.room c.body + .one))) rest

def reads (past : List PastClause) : List Reads := past.flatMap fun c => Items.reads c.body

/-- The clauses followed by others. -/
def followedBy (last : Clauses) : List PastClause → Clauses
  | [] => last
  | c :: rest => .clause c.test c.negate c.body (followedBy last rest)

end PastClauses

/-! ## What a builder has laid out -/

namespace Opening

def room : Opening → Place
  | element _ _ features => .one + Features.room features
  | chain _ _ past current =>
    .acting + (PastClauses.room past + if current.isSome then .one else .start)
  | loop .. => .acting + .one

def code (p : Place) : Opening → List Instr
  | element e key features => .createElement e.name key :: Features.code (p + .one) features
  | chain _ _ past current =>
    .openConditional p.action Builder.pendingTarget
      :: (PastClauses.code (p + .acting) Builder.pendingTarget past
        ++ current.toList.map fun (test, negate) => .branch test negate Builder.pendingTarget)
  | loop _ _ binding collection =>
    [.openLoop p.action binding collection Builder.pendingTarget, .iterate Builder.pendingTarget]

def reads : Opening → List Reads
  | element _ _ features => features.flatMap Feature.reads
  | chain _ _ past current =>
    testReads (past.map PastClause.test ++ current.toList.map Prod.fst) :: PastClauses.reads past
  | loop _ _ _ collection => [collection.reads]

/-- The element that a builder keeps for an opening. -/
def element? : Opening → Option OpenElement
  | element e _ _ => some e
  | _ => none

/-- The kind of the block that is opened. -/
def kind? : Opening → Option BlockKind
  | element .. => none
  | chain negated .. => some (.ofChain negated)
  | loop isFor .. => some (.ofLoop isFor)

/-- The block that a builder keeps for an opening inside of so many elements. -/
def block? (p : Place) (depth : Nat) : Opening → Option OpenBlock
  | element .. => none
  | chain negated span past current =>
    some
      { kind := .ofChain negated, action := p.action, opened := p.pc, depth, span
        pending := current.map fun _ => (p + (.acting + PastClauses.room past)).pc
        exits := PastClauses.exits (p + .acting) past, hasElse := current.isNone, names := 0 }
  | loop isFor span binding _ =>
    some
      { kind := .ofLoop isFor, action := p.action, opened := p.pc, depth, span
        pending := some (p.pc + 1), exits := [], hasElse := false, names := binding.names.length }

/-- The last clause of a conditional. -/
def lastClause (body : List Item) : Option (Expr × Bool) → Clauses
  | some (test, negate) => .clause test negate body .done
  | none => .otherwise body

/-- The part that is closed with the given parts inside. -/
def close (items : List Item) : Opening → Item
  | element e key features => .element e.name key features items
  | chain _ _ past current =>
    .block (.chain (PastClauses.followedBy (lastClause items current) past))
  | loop _ _ binding collection => .block (.loop binding collection items)

/-- The variables that an opening brings into scope. -/
def names : Opening → List String
  | loop _ _ binding _ => binding.names
  | _ => []

end Opening

namespace Levels

/-- Where the innermost level begins to be filled. -/
def place : List Level → Place
  | [] => .start
  | l :: outer => place outer + Items.room l.before + l.opening.room

def code : List Level → List Instr
  | [] => []
  | l :: outer =>
    code outer ++ Items.code (place outer) l.before
      ++ l.opening.code (place outer + Items.room l.before)

def reads : List Level → List Reads
  | [] => []
  | l :: outer => reads outer ++ Items.reads l.before ++ l.opening.reads

/-- The open elements, innermost first. -/
def elements (levels : List Level) : List OpenElement :=
  levels.filterMap fun l => l.opening.element?

/-- The open blocks, innermost first. -/
def blocks : List Level → List OpenBlock
  | [] => []
  | l :: outer =>
    (l.opening.block? (place outer + Items.room l.before) (elements outer).length).toList
      ++ blocks outer

/-- The variables in scope, innermost last. -/
def names : List Level → List String
  | [] => []
  | l :: outer => names outer ++ l.opening.names

end Levels

namespace Draft

/-- Nothing written yet. -/
def empty : Draft := ⟨[], []⟩

/-- Where the next part goes. -/
def here (d : Draft) : Place := Levels.place d.levels + Items.room d.items

def code (d : Draft) : List Instr :=
  Levels.code d.levels ++ Items.code (Levels.place d.levels) d.items

def reads (d : Draft) : List Reads := Levels.reads d.levels ++ Items.reads d.items

/-- The variables in scope, innermost last. -/
def names (d : Draft) : List String := Levels.names d.levels

end Draft

/-- A builder has laid out a draft. -/
structure Builder.Holds (b : Builder) (d : Draft) : Prop where
  instrs : b.instrs.toList = d.code
  reads : b.actions.toList.map Action.reads = d.reads
  elements : b.elements = Levels.elements d.levels
  blocks : b.blocks = Levels.blocks d.levels
  loopVars : b.loopVars = d.names

/-! ## Lengths -/

theorem PastClauses.code_length : ∀ (p : Place) (stop : Nat) (past : List PastClause),
    (code p stop past).length = (room past).pc
  | _, _, [] => rfl
  | p, stop, c :: rest => by
    simp only [code, room, List.length_cons, List.length_append, Items.code_length,
      code_length _ stop rest, Place.add_pc, Place.one_pc]
    omega

theorem PastClauses.reads_length : ∀ past : List PastClause,
    (reads past).length = (room past).action
  | [] => rfl
  | c :: rest => by
    have ih := reads_length rest
    unfold reads at ih ⊢
    simp only [List.flatMap_cons, room, List.length_append, Items.reads_length, ih,
      Place.add_action, Place.one_action]
    omega

namespace Opening

theorem code_length (p : Place) : ∀ o : Opening, (o.code p).length = o.room.pc
  | element .. => by
    simp only [code, room, List.length_cons, Features.code_length, Place.add_pc, Place.one_pc]
    omega
  | chain _ _ past none => by
    simp only [code, room, List.length_cons, List.length_append, PastClauses.code_length,
      Place.add_pc, Place.acting_pc]
    exact Nat.add_comm _ _
  | chain _ _ past (some _) => by
    simp only [code, room, List.length_cons, List.length_append, PastClauses.code_length,
      Place.add_pc, Place.acting_pc]
    exact Nat.add_comm _ _
  | loop .. => rfl

theorem reads_length : ∀ o : Opening, o.reads.length = o.room.action
  | element .. => by
    rw [reads, room, Features.reads_length, Place.add_action]
    exact (Nat.zero_add _).symm
  | chain _ _ past none | chain _ _ past (some _) => by
    simp only [reads, room, List.length_cons, PastClauses.reads_length, Place.add_action,
      Place.acting_action]
    exact Nat.add_comm _ _
  | loop .. => rfl

end Opening

theorem Levels.code_length : ∀ levels : List Level,
    (Levels.code levels).length = (Levels.place levels).pc
  | [] => rfl
  | l :: outer => by
    simp only [Levels.code, Levels.place, List.length_append, Levels.code_length outer,
      Items.code_length, Opening.code_length, Place.add_pc]

theorem Levels.reads_length : ∀ levels : List Level,
    (Levels.reads levels).length = (Levels.place levels).action
  | [] => rfl
  | l :: outer => by
    simp only [Levels.reads, Levels.place, List.length_append, Levels.reads_length outer,
      Items.reads_length, Opening.reads_length, Place.add_action]

theorem Draft.code_length (d : Draft) : d.code.length = d.here.pc := by
  rw [Draft.code, List.length_append, Levels.code_length, Items.code_length]
  rfl

theorem Draft.reads_length (d : Draft) : d.reads.length = d.here.action := by
  rw [Draft.reads, List.length_append, Levels.reads_length, Items.reads_length]
  rfl

end LiveTemplate
