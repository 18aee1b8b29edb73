/-
Compiling keeps the meaning of a template. A forest is a template as it is written, with its tags
and blocks properly nested; its tokens are those of its parts one after the other, and its outline
is found part by part, reading every expression where it stands. A source whose tokens are those of
a forest compiles whenever the expressions of the forest can be read, and rendering the compiled
program is rendering the outline: the same nodes, and the same context afterwards with its state,
its diagnostics and its handlers.
-/
import LiveTemplate.Proofs.Program.Compilation
import LiveTemplate.Proofs.Render.Execution

namespace LiveTemplate

open Markup

/-! ## Forests -/

mutual

/-- A part of a template as it is written. -/
inductive Phrase where
  | text (text : List Char)
  | declaration (markup : String)
  /-- An element without children, which no closing tag follows. -/
  | leaf (tag : Tag) (alone : tag.standsAlone = true)
  | element (tag : Tag) (paired : tag.standsAlone = false) (children : List Phrase) (closing : Tag)
    (named : closing.name = tag.name)
  | emit (expr : Region) (mode : EmitMode) (span : Span)
  | conditional (negated : Bool) (test : Region) (span : Span) (body : List Phrase)
    (alternatives : Alternatives) (closing : Span)
  | loop (isFor : Bool) (collection : Region) (binding : LoopBinding) (span : Span)
    (body : List Phrase) (closing : Span)

/-- The clauses of a conditional after the first one. -/
inductive Alternatives where
  | none
  | otherwise (span : Span) (body : List Phrase)
  | elseIf (test : Region) (span : Span) (body : List Phrase) (rest : Alternatives)

end

/-! ## Tokens -/

/-- The directive that writes a value. -/
def EmitMode.directive (expr : Region) : EmitMode → Directive
  | text => .expression expr
  | html => .html expr
  | json => .json expr

/-- The directive that opens a conditional. -/
def chainOpener (negated : Bool) (test : Region) : Directive :=
  if negated then .unlessOpen test else .ifOpen test

def chainCloser (negated : Bool) : Directive := if negated then .unlessClose else .ifClose

/-- The directive that opens a loop. -/
def loopOpener (isFor : Bool) (collection : Region) (binding : LoopBinding) : Directive :=
  if isFor then .forOpen binding collection else .eachOpen collection binding

def loopCloser (isFor : Bool) : Directive := if isFor then .forClose else .eachClose

mutual

/-- The tokens of a part after their insides were read. -/
def Phrase.pieces : Phrase → List Piece
  | .text text => [.text text]
  | .declaration markup => [.declaration markup]
  | .leaf tag _ => [.openTag tag]
  | .element tag _ children closing _ =>
    .openTag tag :: (Phrases.pieces children ++ [.closeTag closing])
  | .emit expr mode span => [.directive (mode.directive expr) span]
  | .conditional negated test span body alternatives closing =>
    .directive (chainOpener negated test) span
      :: (Phrases.pieces body ++ (alternatives.pieces ++ [.directive (chainCloser negated) closing]))
  | .loop isFor collection binding span body closing =>
    .directive (loopOpener isFor collection binding) span
      :: (Phrases.pieces body ++ [.directive (loopCloser isFor) closing])

def Phrases.pieces : List Phrase → List Piece
  | [] => []
  | phrase :: rest => phrase.pieces ++ Phrases.pieces rest

def Alternatives.pieces : Alternatives → List Piece
  | .none => []
  | .otherwise span body => .directive .elseOnly span :: Phrases.pieces body
  | .elseIf test span body rest =>
    .directive (.elseIf test) span :: (Phrases.pieces body ++ rest.pieces)

end

/-! ## Outlines -/

mutual

/-- The outline of a part where the given variables are in scope; nothing if an expression in it
cannot be read. -/
def Phrase.outline (knows : String → Bool) (names : List String) : Phrase → Option (List Item)
  | .text text => some (textItems text)
  | .declaration markup => some [.text markup]
  | .leaf tag _ => do
    let features ← tag.attributes.mapM (feature? knows names)
    return [.element tag.name (Builder.elementKey tag) features []]
  | .element tag _ children _ _ => do
    let features ← tag.attributes.mapM (feature? knows names)
    let children ← Phrases.outline knows names children
    return [.element tag.name (Builder.elementKey tag) features children]
  | .emit expr mode _ => do
    let e ← read? knows names expr
    return [.block (.emit e mode)]
  | .conditional negated test _ body alternatives _ => do
    let e ← read? knows names test
    let body ← Phrases.outline knows names body
    let rest ← alternatives.outline knows names
    return [.block (.chain (.clause e negated body rest))]
  | .loop _ collection binding _ body _ => do
    let e ← read? knows names collection
    let body ← Phrases.outline knows (names ++ binding.names) body
    return [.block (.loop binding e body)]

def Phrases.outline (knows : String → Bool) (names : List String) :
    List Phrase → Option (List Item)
  | [] => some []
  | phrase :: rest => do
    let items ← phrase.outline knows names
    let others ← Phrases.outline knows names rest
    return items ++ others

def Alternatives.outline (knows : String → Bool) (names : List String) :
    Alternatives → Option Clauses
  | .none => some .done
  | .otherwise _ body => do
    let body ← Phrases.outline knows names body
    return .otherwise body
  | .elseIf test _ body rest => do
    let e ← read? knows names test
    let body ← Phrases.outline knows names body
    let rest ← rest.outline knows names
    return .clause e false body rest

end

/-! ## Writing a forest -/

section

variable {α ι : Type} {f : α → ι → Option α} {a b : α}

theorem foldlM_cons_of_some {i : ι} (h : f a i = some b) (l : List ι) :
    (i :: l).foldlM f a = l.foldlM f b := by
  rw [List.foldlM_cons, h]
  rfl

theorem foldlM_append_of_some {l : List ι} (h : l.foldlM f a = some b) (m : List ι) :
    (l ++ m).foldlM f a = m.foldlM f b := by
  rw [List.foldlM_append, h]
  rfl

end

namespace Draft

theorem append_append (d : Draft) (a b : List Item) :
    (d.append a).append b = d.append (a ++ b) := by
  simp only [append, List.append_assoc]

/-- Elements and conditionals bring no variables. -/
theorem names_enter (d : Draft) {o : Opening} (h : o.names = []) : (d.enter o).names = d.names := by
  show Levels.names d.levels ++ o.names = _
  rw [h, List.append_nil]
  rfl

end Draft

variable {knows : String → Bool}

mutual

/-- Writing the tokens of a part into a draft appends the outline of the part. -/
theorem Phrase.foldlM_pieces : ∀ (phrase : Phrase) (d : Draft) (items : List Item),
    phrase.outline knows d.names = some items →
      phrase.pieces.foldlM (Draft.addPiece knows) d = some (d.append items)
  -- The first piece of a phrase enters a level, its parts fill that level and its last piece leaves it.
  | .text text, d, items, h => by
    cases h
    rfl
  | .declaration markup, d, items, h => by
    cases h
    rfl
  | .leaf tag alone, d, items, h => by
    obtain ⟨features, hf, h⟩ := Option.bind_eq_some_iff.1 h
    cases h
    have opened : d.addPiece knows (.openTag tag) =
        some (d.append [.element tag.name (Builder.elementKey tag) features []]) := by
      show Draft.openTag knows d tag = _
      rw [Draft.openTag, hf]
      simp [alone]
    exact foldlM_cons_of_some opened []
  | .element tag paired children closing named, d, items, h => by
    obtain ⟨features, hf, h⟩ := Option.bind_eq_some_iff.1 h
    obtain ⟨inside, hc, h⟩ := Option.bind_eq_some_iff.1 h
    cases h
    have opened : d.addPiece knows (.openTag tag) =
        some (d.enter (.element ⟨tag.name, tag.span⟩ (Builder.elementKey tag) features)) := by
      show Draft.openTag knows d tag = _
      rw [Draft.openTag, hf]
      simp [paired]
    rw [← d.names_enter (o := .element ⟨tag.name, tag.span⟩ (Builder.elementKey tag) features) rfl]
      at hc
    rw [Phrase.pieces, foldlM_cons_of_some opened,
      foldlM_append_of_some (Phrases.foldlM_pieces children _ _ hc)]
    refine foldlM_cons_of_some ?_ []
    show (if tag.name = closing.name then _ else _) = _
    rw [if_pos named.symm]
    rfl
  | .emit expr mode span, d, items, h => by
    obtain ⟨e, he, h⟩ := Option.bind_eq_some_iff.1 h
    cases h
    have written : d.addPiece knows (.directive (mode.directive expr) span) =
        some (d.append [.block (.emit e mode)]) := by
      cases mode <;>
        (show Draft.emit knows d expr _ = _
         rw [Draft.emit, he]
         rfl)
    exact foldlM_cons_of_some written []
  | .conditional negated test span body alternatives closing, d, items, h => by
    obtain ⟨e, he, h⟩ := Option.bind_eq_some_iff.1 h
    obtain ⟨inside, hb, h⟩ := Option.bind_eq_some_iff.1 h
    obtain ⟨rest, hr, h⟩ := Option.bind_eq_some_iff.1 h
    cases h
    have opened : d.addPiece knows (.directive (chainOpener negated test) span) =
        some (d.enter (.chain negated span [] (some (e, negated)))) := by
      cases negated <;>
        (show Draft.openChain knows d _ test span = _
         rw [Draft.openChain, he]
         rfl)
    rw [← d.names_enter (o := .chain negated span [] (some (e, negated))) rfl] at hb
    obtain ⟨past, current, last, ha, hl⟩ := Alternatives.foldlM_pieces negated span d.items d.levels
      alternatives [] e negated inside rest hr
    have ended : (Draft.mk (⟨d.items, .chain negated span past current⟩ :: d.levels) last).addPiece
        knows (.directive (chainCloser negated) closing) =
        some (d.append [.block (.chain (.clause e negated inside rest))]) := by
      have left : d.append [.block (.chain (.clause e negated inside rest))] =
          Draft.leave ⟨⟨d.items, .chain negated span past current⟩ :: d.levels, last⟩
            ⟨d.items, .chain negated span past current⟩ d.levels := by
        rw [Draft.leave, Opening.close, hl]
        rfl
      rw [left]
      cases negated <;> rfl
    rw [Phrase.pieces, foldlM_cons_of_some opened,
      foldlM_append_of_some (Phrases.foldlM_pieces body _ _ hb)]
    show List.foldlM _ (Draft.mk (⟨d.items, _⟩ :: d.levels) inside) _ = _
    rw [foldlM_append_of_some ha]
    exact foldlM_cons_of_some ended []
  | .loop isFor collection binding span body closing, d, items, h => by
    obtain ⟨e, he, h⟩ := Option.bind_eq_some_iff.1 h
    obtain ⟨inside, hb, h⟩ := Option.bind_eq_some_iff.1 h
    cases h
    have opened : d.addPiece knows (.directive (loopOpener isFor collection binding) span) =
        some (d.enter (.loop isFor span binding e)) := by
      cases isFor <;>
        (show Draft.openLoop knows d _ collection binding span = _
         rw [Draft.openLoop, he]
         rfl)
    rw [Phrase.pieces, foldlM_cons_of_some opened,
      foldlM_append_of_some (Phrases.foldlM_pieces body (d.enter (.loop isFor span binding e)) _ hb)]
    refine foldlM_cons_of_some ?_ []
    cases isFor <;> rfl

theorem Phrases.foldlM_pieces : ∀ (phrases : List Phrase) (d : Draft) (items : List Item),
    Phrases.outline knows d.names phrases = some items →
      (Phrases.pieces phrases).foldlM (Draft.addPiece knows) d = some (d.append items)
  | [], d, items, h => by
    cases h
    show some d = some (d.append [])
    rw [Draft.append, List.append_nil]
  | phrase :: rest, d, items, h => by
    obtain ⟨first, hf, h⟩ := Option.bind_eq_some_iff.1 h
    obtain ⟨others, ho, h⟩ := Option.bind_eq_some_iff.1 h
    cases h
    rw [Phrases.pieces, foldlM_append_of_some (Phrase.foldlM_pieces phrase d first hf),
      Phrases.foldlM_pieces rest (d.append first) others ho, Draft.append_append]

/-- Writing the alternatives of a conditional inside of a tested clause leaves the conditional with
clauses that end as the outlines of the alternatives do. -/
theorem Alternatives.foldlM_pieces (negated : Bool) (span : Span) (before : List Item)
    (outer : List Level) : ∀ (alternatives : Alternatives) (past : List PastClause) (e : Expr)
      (negate : Bool) (items : List Item) (rest : Clauses),
    alternatives.outline knows (Levels.names outer) = some rest →
      ∃ past' current items', alternatives.pieces.foldlM (Draft.addPiece knows)
          ⟨⟨before, .chain negated span past (some (e, negate))⟩ :: outer, items⟩ =
        some ⟨⟨before, .chain negated span past' current⟩ :: outer, items'⟩ ∧
      PastClauses.followedBy (Opening.lastClause items' current) past' =
        PastClauses.followedBy (.clause e negate items rest) past
  | .none, past, e, negate, items, rest, h => by
    cases h
    exact ⟨past, _, items, rfl, rfl⟩
  | .otherwise s body, past, e, negate, items, rest, h => by
    obtain ⟨inside, hb, h⟩ := Option.bind_eq_some_iff.1 h
    cases h
    have named : (Draft.mk (⟨before, .chain negated span (past ++ [⟨e, negate, items⟩]) none⟩
        :: outer) []).names = Levels.names outer := List.append_nil _
    rw [← named] at hb
    refine ⟨past ++ [⟨e, negate, items⟩], none, inside, ?_, ?_⟩
    · rw [Alternatives.pieces, foldlM_cons_of_some rfl, Phrases.foldlM_pieces body _ _ hb]
      rfl
    · rw [PastClauses.followedBy_append]
      rfl
  | .elseIf test s body alternatives, past, e, negate, items, rest, h => by
    obtain ⟨e', he, h⟩ := Option.bind_eq_some_iff.1 h
    obtain ⟨inside, hb, h⟩ := Option.bind_eq_some_iff.1 h
    obtain ⟨others, ho, h⟩ := Option.bind_eq_some_iff.1 h
    cases h
    have named : (Draft.mk (⟨before, .chain negated span past (some (e, negate))⟩ :: outer)
        items).names = Levels.names outer := List.append_nil _
    have opened : (Draft.mk (⟨before, .chain negated span past (some (e, negate))⟩ :: outer)
          items).addPiece knows (.directive (.elseIf test) s) =
        some ⟨⟨before, .chain negated span (past ++ [⟨e, negate, items⟩]) (some (e', false))⟩
          :: outer, []⟩ := by
      show (read? knows (Draft.names _) test >>= _) = _
      rw [named, he]
      rfl
    have named' : (Draft.mk (⟨before, .chain negated span (past ++ [⟨e, negate, items⟩])
        (some (e', false))⟩ :: outer) []).names = Levels.names outer := List.append_nil _
    rw [← named'] at hb
    obtain ⟨past', current, last, ha, hl⟩ := Alternatives.foldlM_pieces negated span before outer
      alternatives (past ++ [⟨e, negate, items⟩]) e' false inside others ho
    refine ⟨past', current, last, ?_, ?_⟩
    · rw [Alternatives.pieces, foldlM_cons_of_some opened,
        foldlM_append_of_some (Phrases.foldlM_pieces body _ _ hb)]
      exact ha
    · rw [hl, PastClauses.followedBy_append]
      rfl

end

/-! ## Parts one after the other -/

theorem Phrases.pieces_append : ∀ a b : List Phrase,
    Phrases.pieces (a ++ b) = Phrases.pieces a ++ Phrases.pieces b
  | [], _ => rfl
  | phrase :: a, b => by
    rw [List.cons_append, Phrases.pieces, pieces_append a b, Phrases.pieces, List.append_assoc]

theorem Phrases.outline_append {names : List String} {b : List Phrase}
    {others : List Item} (hb : Phrases.outline knows names b = some others) :
    ∀ {a : List Phrase} {items : List Item}, Phrases.outline knows names a = some items →
      Phrases.outline knows names (a ++ b) = some (items ++ others)
  | [], items, ha => by
    cases ha
    exact hb
  | phrase :: a, items, ha => by
    rw [Phrases.outline, Option.bind_eq_bind, Option.bind_eq_some_iff] at ha
    obtain ⟨first, hf, ha⟩ := ha
    obtain ⟨rest, hr, eq⟩ := Option.bind_eq_some_iff.1 ha
    cases eq
    simp [Phrases.outline, hf, outline_append hb hr]

/-! ## Compiling a forest -/

/-- A source whose tokens are those of a forest has the outline of the forest. -/
theorem outline?_forest {source : String} {tokens : List Markup.Token} {forest : List Phrase}
    {items : List Item} (ht : Markup.tokens source.toList = (tokens, none))
    (hp : tokens.mapM (Piece.ofToken source.toList) = .ok (Phrases.pieces forest))
    (hi : Phrases.outline knows [] forest = some items) : outline? knows source = some items := by
  have written := Phrases.foldlM_pieces forest .empty items hi
  unfold outline?
  simp only [ht, hp]
  show ((Phrases.pieces forest).foldlM (Draft.addPiece knows) .empty >>= Draft.finish) = _
  rw [written]
  rfl

/-- A source whose tokens are those of a forest compiles if the expressions of the forest can be
read, and whatever template is made of the program renders as the outline of the forest. -/
theorem compile_render_eq {source : String} {tokens : List Markup.Token} {forest : List Phrase}
    {items : List Item} (ht : Markup.tokens source.toList = (tokens, none))
    (hp : tokens.mapM (Piece.ofToken source.toList) = .ok (Phrases.pieces forest))
    (hi : Phrases.outline knows [] forest = some items) :
    ∃ program, (compile knows source).program = .ok program ∧
      ∀ (t : Template), t.program = program → ∀ c : Context,
        t.runAll c = (.ok (Items.render t .start [] items c).1,
          (Items.render t .start [] items c).2) ∧
        t.render c = Items.render t .start [] items (t.prepare c) := by
  obtain ⟨program, hc, laid⟩ := (compile_refines knows source).some (outline?_forest ht hp hi)
  refine ⟨program, hc, fun t htp c => ?_⟩
  rw [← htp] at laid
  exact ⟨t.runAll_eq laid c, t.render_eq laid c⟩

/-- A loop around a conditional with an element that has no closing tag. -/
theorem compile_render_eq_loop :
    let source := "\x7b#each xs as x\x7d\x7b#if x\x7d\x7bx\x7d\x7b:else\x7d<br>\x7b/if\x7d\x7b/each\x7d"
    let knows : String → Bool := fun _ => false
    ∃ tokens forest items, Markup.tokens source.toList = (tokens, none) ∧
      tokens.mapM (Piece.ofToken source.toList) = .ok (Phrases.pieces forest) ∧
      Phrases.outline knows [] forest = some items ∧
      ∃ program, (compile knows source).program = .ok program ∧
        ∀ (t : Template), t.program = program → ∀ c : Context,
          t.runAll c = (.ok (Items.render t .start [] items c).1,
            (Items.render t .start [] items c).2) ∧
          t.render c = Items.render t .start [] items (t.prepare c) := by
  intro source knows
  let tokens : List Markup.Token :=
    [.braced ⟨1, "#each xs as x".toList⟩, .braced ⟨16, "#if x".toList⟩, .braced ⟨23, ['x']⟩,
      .braced ⟨26, ":else".toList⟩, .tag ⟨32, "<br>".toList⟩, .braced ⟨37, "/if".toList⟩,
      .braced ⟨42, "/each".toList⟩]
  let forest : List Phrase :=
    [.loop false ⟨7, ['x', 's']⟩ ⟨["x"], some "index", false⟩ ⟨1, 14⟩
      [.conditional false ⟨20, ['x']⟩ ⟨16, 21⟩ [.emit ⟨23, ['x']⟩ .text ⟨23, 24⟩]
        (.otherwise ⟨26, 31⟩ [.leaf ⟨"br", [], false, false, ⟨32, 36⟩⟩ rfl]) ⟨37, 40⟩] ⟨42, 47⟩]
  let items : List Item :=
    [.block (.loop ⟨["x"], some "index", false⟩ (.root ⟨7, 9⟩ (.field "xs"))
      [.block (.chain (.clause (.root ⟨20, 21⟩ (.bound "x")) false
        [.block (.emit (.root ⟨23, 24⟩ (.bound "x")) .text)]
        (.otherwise [.element "br" none [] []])))])]
  have ht : Markup.tokens source.toList = (tokens, none) := by decide +kernel
  have hp : tokens.mapM (Piece.ofToken source.toList) = .ok (Phrases.pieces forest) := by
    decide +kernel
  have hi : Phrases.outline knows [] forest = some items := rfl
  exact ⟨tokens, forest, items, ht, hp, hi, compile_render_eq ht hp hi⟩

end LiveTemplate
