/-
Which templates compile. Take the tokens of a source whose insides can be read, each with the loop
variables that are in scope where it stands. They compile exactly if their tags and blocks are
properly nested, where elements may be left open at the end outside of all blocks; and where they
do not compile, the fault is one of nesting.
-/
import LiveTemplate.Proofs.Render.Preservation

namespace LiveTemplate

open Markup

/-! ## Nesting -/

/-- The tokens of a forest, followed by elements that are never closed, one inside the other. -/
def WellNested (pieces : List Piece) : Prop :=
  ∃ (forest : List Phrase) (left : List (Tag × List Phrase)),
    (∀ element ∈ left, element.1.standsAlone = false) ∧
      pieces = Phrases.pieces forest ++
        left.flatMap fun element => .openTag element.1 :: Phrases.pieces element.2

theorem wellNested_nil : WellNested [] := ⟨[], [], by simp, rfl⟩

theorem WellNested.cons {pieces : List Piece} (h : WellNested pieces) (phrase : Phrase) :
    WellNested (phrase.pieces ++ pieces) := by
  obtain ⟨forest, left, hl, rfl⟩ := h
  exact ⟨phrase :: forest, left, hl, by simp [Phrases.pieces]⟩

theorem WellNested.leave {pieces : List Piece} (h : WellNested pieces) {tag : Tag}
    (ht : tag.standsAlone = false) : WellNested (.openTag tag :: pieces) := by
  obtain ⟨forest, left, hl, rfl⟩ := h
  refine ⟨[], (tag, forest) :: left, ?_, by simp [Phrases.pieces]⟩
  simpa [ht] using hl

/-! ## Reading -/

/-- The variables of the loops that are open after a token, those of the innermost loop first. -/
def Piece.loops (loops : List (List String)) : Piece → List (List String)
  | .directive (.eachOpen _ binding) _ | .directive (.forOpen binding _) _ =>
    binding.names :: loops
  | .directive .eachClose _ | .directive .forClose _ => loops.tail
  | _ => loops

/-- The variables in scope inside of loops, innermost last. -/
def namesIn (loops : List (List String)) : List String := loops.reverse.flatten

/-- The expression of a directive. -/
def Markup.Directive.expr? : Directive → Option Region
  | .ifOpen e | .unlessOpen e | .elseIf e | .eachOpen e _ | .forOpen _ e | .html e | .json e
  | .expression e => some e
  | _ => none

/-- The expressions in a token can be read where the given variables are in scope. -/
def Piece.Readable (knows : String → Bool) (names : List String) : Piece → Prop
  | .openTag tag => ∀ a ∈ tag.attributes, (feature? knows names a).isSome = true
  | .directive what _ => ∀ e ∈ what.expr?, (read? knows names e).isSome = true
  | _ => True

/-- The expressions in all tokens can be read, each where it stands. -/
def Pieces.Readable (knows : String → Bool) : List (List String) → List Piece → Prop
  | _, [] => True
  | loops, piece :: rest =>
    piece.Readable knows (namesIn loops) ∧ Pieces.Readable knows (piece.loops loops) rest

variable {knows : String → Bool}

theorem namesIn_cons (names : List String) (loops : List (List String)) :
    namesIn (names :: loops) = namesIn loops ++ names := by
  simp [namesIn]

theorem mapM_of_isSome {α β : Type} {f : α → Option β} : ∀ {xs : List α},
    (∀ x ∈ xs, (f x).isSome = true) → ∃ ys, xs.mapM f = some ys
  | [], _ => ⟨[], rfl⟩
  | x :: xs, h => by
    obtain ⟨y, hy⟩ := Option.isSome_iff_exists.1 (h x List.mem_cons_self)
    obtain ⟨ys, hys⟩ := mapM_of_isSome fun x' hx => h x' (List.mem_cons_of_mem _ hx)
    exact ⟨y :: ys, by rw [List.mapM_cons, hy, hys]; rfl⟩

theorem Piece.Readable.features {names : List String} {tag : Tag}
    (h : (Piece.openTag tag).Readable knows names) :
    ∃ features, tag.attributes.mapM (feature? knows names) = some features :=
  mapM_of_isSome h

theorem Piece.Readable.expr {names : List String} {directive : Directive} {span : Span}
    (h : (Piece.directive directive span).Readable knows names) (region : Region)
    (he : directive.expr? = some region) : ∃ e, read? knows names region = some e :=
  Option.isSome_iff_exists.1 (h region he)

mutual

/-- A part whose tokens can be read has an outline, and the loops around it are the same after it. -/
theorem Phrase.outline_of_readable : ∀ (phrase : Phrase) (loops : List (List String))
    (rest : List Piece), Pieces.Readable knows loops (phrase.pieces ++ rest) →
      (∃ items, phrase.outline knows (namesIn loops) = some items) ∧
        Pieces.Readable knows loops rest
  | .text text, loops, rest, h => ⟨⟨_, rfl⟩, h.2⟩
  | .declaration markup, loops, rest, h => ⟨⟨_, rfl⟩, h.2⟩
  | .leaf tag _, loops, rest, ⟨h, hr⟩ => by
    obtain ⟨features, hf⟩ := h.features
    exact ⟨⟨_, by rw [Phrase.outline, hf]; rfl⟩, hr⟩
  | .element tag _ children closing _, loops, rest, h => by
    simp only [Phrase.pieces, List.cons_append, List.append_assoc, List.nil_append] at h
    obtain ⟨⟨features, hf⟩, hc⟩ := h.imp_left Piece.Readable.features
    obtain ⟨⟨items, hi⟩, hr⟩ := Phrases.outline_of_readable children loops _ hc
    exact ⟨⟨_, by rw [Phrase.outline, hf]; simp only [Option.bind_eq_bind, Option.bind_some, hi]; rfl⟩,
      hr.2⟩
  | .emit expr mode span, loops, rest, ⟨h, hr⟩ => by
    obtain ⟨e, he⟩ := h.expr expr (by cases mode <;> rfl)
    refine ⟨⟨_, by rw [Phrase.outline, he]; rfl⟩, ?_⟩
    cases mode <;> exact hr
  | .conditional negated test span body alternatives closing, loops, rest, h => by
    simp only [Phrase.pieces, List.cons_append, List.append_assoc, List.nil_append] at h
    obtain ⟨ht, hb⟩ := h
    obtain ⟨e, he⟩ := ht.expr test (by cases negated <;> rfl)
    have hb' : Pieces.Readable knows loops (Phrases.pieces body ++ (alternatives.pieces ++
        .directive (chainCloser negated) closing :: rest)) := by
      cases negated <;> exact hb
    obtain ⟨⟨items, hi⟩, ha⟩ := Phrases.outline_of_readable body loops _ hb'
    obtain ⟨⟨clauses, hc⟩, hr⟩ := Alternatives.outline_of_readable alternatives loops _ ha
    refine ⟨⟨_, by
      rw [Phrase.outline, he]
      simp only [Option.bind_eq_bind, Option.bind_some, hi, hc]; rfl⟩, ?_⟩
    cases negated <;> exact hr.2
  | .loop isFor collection binding span body closing, loops, rest, h => by
    simp only [Phrase.pieces, List.cons_append, List.append_assoc, List.nil_append] at h
    obtain ⟨hcol, hb⟩ := h
    obtain ⟨e, he⟩ := hcol.expr collection (by cases isFor <;> rfl)
    have hb' : Pieces.Readable knows (binding.names :: loops) (Phrases.pieces body ++
        .directive (loopCloser isFor) closing :: rest) := by
      cases isFor <;> exact hb
    obtain ⟨⟨items, hi⟩, hr⟩ := Phrases.outline_of_readable body _ _ hb'
    rw [namesIn_cons] at hi
    refine ⟨⟨_, by
      rw [Phrase.outline, he]
      simp only [Option.bind_eq_bind, Option.bind_some, hi]; rfl⟩, ?_⟩
    cases isFor <;> exact hr.2

theorem Phrases.outline_of_readable : ∀ (phrases : List Phrase) (loops : List (List String))
    (rest : List Piece), Pieces.Readable knows loops (Phrases.pieces phrases ++ rest) →
      (∃ items, Phrases.outline knows (namesIn loops) phrases = some items) ∧
        Pieces.Readable knows loops rest
  | [], loops, rest, h => ⟨⟨_, rfl⟩, h⟩
  | phrase :: others, loops, rest, h => by
    rw [Phrases.pieces, List.append_assoc] at h
    obtain ⟨⟨first, hf⟩, h'⟩ := Phrase.outline_of_readable phrase loops _ h
    obtain ⟨⟨items, hi⟩, hr⟩ := Phrases.outline_of_readable others loops rest h'
    exact ⟨⟨_, by rw [Phrases.outline, hf]; simp only [Option.bind_eq_bind, Option.bind_some, hi]; rfl⟩,
      hr⟩

theorem Alternatives.outline_of_readable : ∀ (alternatives : Alternatives)
    (loops : List (List String)) (rest : List Piece),
    Pieces.Readable knows loops (alternatives.pieces ++ rest) →
      (∃ clauses, alternatives.outline knows (namesIn loops) = some clauses) ∧
        Pieces.Readable knows loops rest
  | .none, loops, rest, h => ⟨⟨_, rfl⟩, h⟩
  | .otherwise span body, loops, rest, h => by
    obtain ⟨⟨items, hi⟩, hr⟩ := Phrases.outline_of_readable body loops rest h.2
    exact ⟨⟨_, by rw [Alternatives.outline, hi]; rfl⟩, hr⟩
  | .elseIf test span body alternatives, loops, rest, h => by
    simp only [Alternatives.pieces, List.cons_append, List.append_assoc] at h
    obtain ⟨⟨e, he⟩, hb⟩ := h.imp_left fun ht => ht.expr test rfl
    obtain ⟨⟨items, hi⟩, ha⟩ := Phrases.outline_of_readable body loops _ hb
    obtain ⟨⟨clauses, hc⟩, hr⟩ := Alternatives.outline_of_readable alternatives loops rest ha
    exact ⟨⟨_, by
      rw [Alternatives.outline, he]
      simp only [Option.bind_eq_bind, Option.bind_some, hi, hc]; rfl⟩, hr⟩

end

/-! ## Tokens that compile are nested -/

/-- The tokens that finish an open part. -/
def Opening.Tail : Opening → List Piece → Prop
  | .element e _ _, tail => ∃ (forest : List Phrase) (closing : Tag),
    closing.name = e.name ∧ tail = Phrases.pieces forest ++ [.closeTag closing]
  | .chain negated _ _ current, tail => ∃ (forest : List Phrase) (alternatives : Alternatives)
      (span : Span), (current = none → alternatives = .none) ∧
    tail = Phrases.pieces forest
      ++ (alternatives.pieces ++ [.directive (chainCloser negated) span])
  | .loop isFor _ _ _, tail => ∃ (forest : List Phrase) (span : Span),
    tail = Phrases.pieces forest ++ [.directive (loopCloser isFor) span]

/-- The tokens that finish a template with open parts, innermost first. Once no block is open, the
elements that are may stay so. -/
def Levels.Closes : List Level → List Piece → Prop
  | [], pieces => WellNested pieces
  | l :: outer, pieces =>
    (∃ tail rest, l.opening.Tail tail ∧ pieces = tail ++ rest ∧ Closes outer rest) ∨
      (Levels.blocks (l :: outer) = [] ∧ WellNested pieces)

theorem Opening.Tail.cons {opening : Opening} {tail : List Piece} (h : opening.Tail tail)
    (phrase : Phrase) : opening.Tail (phrase.pieces ++ tail) := by
  cases opening with
  | element e key features =>
    obtain ⟨forest, closing, hn, rfl⟩ := h
    exact ⟨phrase :: forest, closing, hn, by simp [Phrases.pieces]⟩
  | chain negated span past current =>
    obtain ⟨forest, alternatives, closing, hc, rfl⟩ := h
    exact ⟨phrase :: forest, alternatives, closing, hc, by simp [Phrases.pieces]⟩
  | loop isFor span binding collection =>
    obtain ⟨forest, closing, rfl⟩ := h
    exact ⟨phrase :: forest, closing, by simp [Phrases.pieces]⟩

namespace Levels.Closes

variable {levels : List Level} {pieces : List Piece}

theorem of_wellNested (hb : Levels.blocks levels = []) (h : WellNested pieces) :
    Closes levels pieces := by
  cases levels with
  | nil => exact h
  | cons l outer => exact .inr ⟨hb, h⟩

theorem cons (h : Closes levels pieces) (phrase : Phrase) :
    Closes levels (phrase.pieces ++ pieces) := by
  cases levels with
  | nil => exact WellNested.cons h phrase
  | cons l outer =>
    rcases h with ⟨tail, rest, ht, rfl, hr⟩ | ⟨hb, hw⟩
    · exact .inl ⟨phrase.pieces ++ tail, rest, ht.cons phrase, by simp, hr⟩
    · exact .inr ⟨hb, hw.cons phrase⟩

/-- The token that opens a part makes a whole of what finishes the part. -/
theorem enter {before : List Item} {opening : Opening} {piece : Piece}
    (h : Closes (⟨before, opening⟩ :: levels) pieces)
    (whole : ∀ tail, opening.Tail tail → ∃ phrase : Phrase, phrase.pieces = piece :: tail)
    (left : ∀ e key features, opening = .element e key features →
      ∃ tag : Tag, piece = .openTag tag ∧ tag.standsAlone = false) :
    Closes levels (piece :: pieces) := by
  rcases h with ⟨tail, rest, ht, rfl, hr⟩ | ⟨hb, hw⟩
  · obtain ⟨phrase, hp⟩ := whole tail ht
    rw [← List.cons_append, ← hp]
    exact hr.cons phrase
  · cases opening with
    | element e key features =>
      obtain ⟨tag, rfl, hs⟩ := left e key features rfl
      exact of_wellNested hb (hw.leave hs)
    | chain negated span past current => exact absurd hb (List.cons_ne_nil _ _)
    | loop isFor span binding collection => exact absurd hb (List.cons_ne_nil _ _)

theorem leave {outer : List Level} (h : Closes outer pieces) (l : Level) {piece : Piece}
    (ht : l.opening.Tail [piece]) : Closes (l :: outer) (piece :: pieces) :=
  .inl ⟨[piece], pieces, ht, rfl, h⟩

/-- A clause is finished by the clause after it and what finishes that one. -/
theorem nextClause {outer : List Level} {before : List Item} {negated : Bool} {span : Span}
    {past past' : List PastClause} {test : Expr × Bool} {next : Option (Expr × Bool)}
    {piece : Piece} (h : Closes (⟨before, .chain negated span past' next⟩ :: outer) pieces)
    (ha : ∀ (forest : List Phrase) (alternatives : Alternatives),
      (next = none → alternatives = .none) → ∃ alternatives' : Alternatives,
        alternatives'.pieces = piece :: (Phrases.pieces forest ++ alternatives.pieces)) :
    Closes (⟨before, .chain negated span past (some test)⟩ :: outer) (piece :: pieces) := by
  rcases h with ⟨tail, rest, ⟨forest, alternatives, closing, hc, rfl⟩, rfl, hr⟩ | ⟨hb, -⟩
  · obtain ⟨alternatives', ha'⟩ := ha forest alternatives hc
    refine .inl ⟨_, rest, ⟨[], alternatives', closing, nofun, rfl⟩, ?_, hr⟩
    simp [Phrases.pieces, ha']
  · exact absurd hb (List.cons_ne_nil _ _)

end Levels.Closes

namespace Draft

variable {d d' : Draft} {rest : List Piece}

theorem openTag_closes {tag : Tag} (h : d.openTag knows tag = some d')
    (hc : Levels.Closes d'.levels rest) : Levels.Closes d.levels (.openTag tag :: rest) := by
  obtain ⟨features, -, h⟩ := Option.bind_eq_some_iff.1 h
  simp only at h
  split at h
  case isTrue alone =>
    cases h
    exact hc.cons (.leaf tag alone)
  case isFalse paired =>
    cases h
    refine hc.enter ?_ fun _ _ _ _ => ⟨tag, rfl, by simpa using paired⟩
    rintro _ ⟨forest, closing, hn, rfl⟩
    exact ⟨.element tag (by simpa using paired) forest closing hn, rfl⟩

theorem closeTag_closes {tag : Tag} (h : d.closeTag tag.name = some d')
    (hc : Levels.Closes d'.levels rest) : Levels.Closes d.levels (.closeTag tag :: rest) := by
  rcases d with ⟨_ | ⟨⟨before, o⟩, outer⟩, items⟩
  · cases h
  cases o with
  | element e key features =>
    obtain ⟨hn, h⟩ := Option.ite_none_right_eq_some.1 h
    cases h
    exact hc.leave _ ⟨[], tag, hn.symm, rfl⟩
  | chain negated span past current => cases h
  | loop isFor span binding collection => cases h

theorem emit_closes {region : Region} (mode : EmitMode) (span : Span)
    (h : d.emit knows region mode = some d') (hc : Levels.Closes d'.levels rest) :
    Levels.Closes d.levels (.directive (mode.directive region) span :: rest) := by
  obtain ⟨e, -, h⟩ := Option.bind_eq_some_iff.1 h
  cases h
  exact hc.cons (.emit region mode span)

theorem openChain_closes (negated : Bool) {test : Region} {span : Span}
    (h : d.openChain knows negated test span = some d') (hc : Levels.Closes d'.levels rest) :
    Levels.Closes d.levels (.directive (chainOpener negated test) span :: rest) := by
  obtain ⟨e, -, h⟩ := Option.bind_eq_some_iff.1 h
  cases h
  refine hc.enter ?_ nofun
  rintro _ ⟨forest, alternatives, closing, -, rfl⟩
  exact ⟨.conditional negated test span forest alternatives closing, rfl⟩

theorem openLoop_closes (isFor : Bool) {collection : Region} {binding : LoopBinding} {span : Span}
    (h : d.openLoop knows isFor collection binding span = some d')
    (hc : Levels.Closes d'.levels rest) :
    Levels.Closes d.levels (.directive (loopOpener isFor collection binding) span :: rest) := by
  obtain ⟨e, -, h⟩ := Option.bind_eq_some_iff.1 h
  cases h
  refine hc.enter ?_ nofun
  rintro _ ⟨forest, closing, rfl⟩
  exact ⟨.loop isFor collection binding span forest closing, rfl⟩

theorem nextClause_closes {next : Option (Expr × Bool)} {piece : Piece}
    (h : d.nextClause next = some d') (hc : Levels.Closes d'.levels rest)
    (ha : ∀ (forest : List Phrase) (alternatives : Alternatives),
      (next = none → alternatives = .none) → ∃ alternatives' : Alternatives,
        alternatives'.pieces = piece :: (Phrases.pieces forest ++ alternatives.pieces)) :
    Levels.Closes d.levels (piece :: rest) := by
  rcases d with ⟨_ | ⟨⟨before, o⟩, outer⟩, items⟩
  · cases h
  cases o with
  | element e key features => cases h
  | loop isFor span binding collection => cases h
  | chain negated span past current =>
    rcases current with _ | ⟨e, negate⟩
    · cases h
    · cases h
      exact hc.nextClause ha

theorem closeBlock_closes {kind : BlockKind} {piece : Piece} (h : d.closeBlock kind = some d')
    (hc : Levels.Closes d'.levels rest)
    (hp : ∀ opening : Opening, opening.kind? = some kind → opening.Tail [piece]) :
    Levels.Closes d.levels (piece :: rest) := by
  obtain ⟨⟨l, outer⟩, hi, h⟩ := Option.bind_eq_some_iff.1 h
  cases h
  rcases d with ⟨_ | ⟨l', outer'⟩, items⟩
  · cases hi
  · obtain ⟨hk, hi⟩ := Option.ite_none_right_eq_some.1 hi
    cases hi
    exact hc.leave _ (hp _ hk)

theorem chainCloser_tail {opening : Opening} (negated : Bool) (span : Span)
    (hk : opening.kind? = some (.ofChain negated)) :
    opening.Tail [.directive (chainCloser negated) span] := by
  cases opening with
  | element e key features => cases hk
  | chain negated' s past current =>
    have he : negated' = negated := by
      cases negated <;> cases negated' <;> simp_all [Opening.kind?, BlockKind.ofChain]
    exact ⟨[], .none, span, fun _ => rfl, by rw [he]; rfl⟩
  | loop isFor s binding collection =>
    cases negated <;> cases isFor <;>
      simp [Opening.kind?, BlockKind.ofChain, BlockKind.ofLoop] at hk

theorem loopCloser_tail {opening : Opening} (isFor : Bool) (span : Span)
    (hk : opening.kind? = some (.ofLoop isFor)) :
    opening.Tail [.directive (loopCloser isFor) span] := by
  cases opening with
  | element e key features => cases hk
  | chain negated s past current =>
    cases negated <;> cases isFor <;>
      simp [Opening.kind?, BlockKind.ofChain, BlockKind.ofLoop] at hk
  | loop isFor' s binding collection =>
    have he : isFor' = isFor := by
      cases isFor <;> cases isFor' <;> simp_all [Opening.kind?, BlockKind.ofLoop]
    exact ⟨[], span, by rw [he]; rfl⟩

theorem addDirective_closes {directive : Directive} {span : Span}
    (h : d.addDirective knows span directive = some d') (hc : Levels.Closes d'.levels rest) :
    Levels.Closes d.levels (.directive directive span :: rest) := by
  cases directive with
  | ifOpen test => exact openChain_closes false h hc
  | unlessOpen test => exact openChain_closes true h hc
  | elseIf test =>
    obtain ⟨e, -, h⟩ := Option.bind_eq_some_iff.1 h
    exact nextClause_closes h hc fun forest alternatives _ =>
      ⟨.elseIf test span forest alternatives, rfl⟩
  | elseOnly =>
    refine nextClause_closes h hc fun forest alternatives ha => ⟨.otherwise span forest, ?_⟩
    simp [Alternatives.pieces, ha rfl]
  | eachOpen collection binding => exact openLoop_closes false h hc
  | forOpen binding collection => exact openLoop_closes true h hc
  | ifClose => exact closeBlock_closes h hc fun _ => chainCloser_tail false span
  | unlessClose => exact closeBlock_closes h hc fun _ => chainCloser_tail true span
  | eachClose => exact closeBlock_closes h hc fun _ => loopCloser_tail false span
  | forClose => exact closeBlock_closes h hc fun _ => loopCloser_tail true span
  | html e => exact emit_closes .html span h hc
  | json e => exact emit_closes .json span h hc
  | expression e => exact emit_closes .text span h hc

/-- A token finishes a draft together with what finishes the draft after it. -/
theorem addPiece_closes {piece : Piece} (h : d.addPiece knows piece = some d')
    (hc : Levels.Closes d'.levels rest) : Levels.Closes d.levels (piece :: rest) := by
  cases piece with
  | text text =>
    cases h
    exact hc.cons (.text text)
  | declaration markup =>
    cases h
    exact hc.cons (.declaration markup)
  | openTag tag => exact openTag_closes h hc
  | closeTag tag => exact closeTag_closes h hc
  | directive directive span => exact addDirective_closes h hc

theorem foldlM_closes : ∀ (pieces : List Piece) {d d' : Draft},
    pieces.foldlM (addPiece knows) d = some d' → Levels.blocks d'.levels = [] →
      Levels.Closes d.levels pieces
  | [], d, d', h, hb => by
    cases h
    exact .of_wellNested hb wellNested_nil
  | piece :: rest, d, d', h, hb => by
    rw [List.foldlM_cons] at h
    obtain ⟨next, hn, h⟩ := Option.bind_eq_some_iff.1 h
    exact addPiece_closes hn (foldlM_closes rest h hb)

/-- A draft can be finished exactly if no block is open. -/
theorem finish_isSome_iff (d : Draft) :
    d.finish.isSome = true ↔ Levels.blocks d.levels = [] := by
  have spec := Levels.closeAll_spec d.levels d.items
  unfold finish
  cases hc : closeAll d.levels d.items with
  | none =>
    rw [hc] at spec
    simpa using spec
  | some items =>
    rw [hc] at spec
    simpa using spec.1

/-! ## Nested tokens compile -/

/-- Elements that are left open can be written, one inside the other. -/
theorem foldlM_left (loops : List (List String)) : ∀ (left : List (Tag × List Phrase)) (d : Draft),
    (∀ element ∈ left, element.1.standsAlone = false) → d.names = namesIn loops →
    Levels.blocks d.levels = [] →
    Pieces.Readable knows loops
      (left.flatMap fun element => .openTag element.1 :: Phrases.pieces element.2) →
    ∃ d', (left.flatMap fun element => .openTag element.1 :: Phrases.pieces element.2).foldlM
      (addPiece knows) d = some d' ∧ Levels.blocks d'.levels = []
  | [], d, _, _, hb, _ => ⟨d, rfl, hb⟩
  | (tag, children) :: left, d, hl, hn, hb, hr => by
    simp only [List.flatMap_cons, List.cons_append] at hr ⊢
    obtain ⟨⟨features, hf⟩, hr⟩ := hr.imp_left Piece.Readable.features
    obtain ⟨⟨items, hi⟩, hr⟩ := Phrases.outline_of_readable children loops _ hr
    have paired : tag.standsAlone = false := hl _ List.mem_cons_self
    let inside := d.enter (.element ⟨tag.name, tag.span⟩ (Builder.elementKey tag) features)
    have hn' : inside.names = namesIn loops := (d.names_enter rfl).trans hn
    have opened : d.addPiece knows (.openTag tag) = some inside := by
      show Draft.openTag knows d tag = _
      rw [Draft.openTag, hn, hf]
      simp [paired, inside]
    rw [← hn'] at hi
    rw [foldlM_cons_of_some opened, foldlM_append_of_some (Phrases.foldlM_pieces children _ _ hi)]
    exact foldlM_left loops left (inside.append items)
      (fun element hm => hl element (List.mem_cons_of_mem _ hm)) hn' hb hr

theorem foldlM_wellNested {pieces : List Piece} (h : WellNested pieces)
    (hr : Pieces.Readable knows [] pieces) :
    ∃ d', pieces.foldlM (addPiece knows) .empty = some d' ∧ Levels.blocks d'.levels = [] := by
  obtain ⟨forest, left, hl, rfl⟩ := h
  obtain ⟨⟨items, hi⟩, hr⟩ := Phrases.outline_of_readable forest [] _ hr
  rw [foldlM_append_of_some (Phrases.foldlM_pieces forest .empty items hi)]
  exact foldlM_left [] left _ hl rfl rfl hr

end Draft

/-! ## Loops around a draft -/

/-- The variables of the loops around a draft, those of the innermost first. -/
def Levels.loops : List Level → List (List String)
  | [] => []
  | ⟨_, .loop _ _ binding _⟩ :: outer => binding.names :: loops outer
  | _ :: outer => loops outer

theorem Levels.namesIn_loops : ∀ levels : List Level,
    namesIn (Levels.loops levels) = Levels.names levels
  | [] => rfl
  | ⟨_, .loop _ _ binding _⟩ :: outer => by
    rw [Levels.loops, namesIn_cons, Levels.namesIn_loops outer]
    rfl
  | ⟨_, .element ..⟩ :: outer => (Levels.namesIn_loops outer).trans (List.append_nil _).symm
  | ⟨_, .chain ..⟩ :: outer => (Levels.namesIn_loops outer).trans (List.append_nil _).symm

namespace Draft

variable {d d' : Draft}

theorem closeBlock_loops {kind : BlockKind} (h : d.closeBlock kind = some d') :
    ∃ l : Level, l.opening.kind? = some kind ∧ d.levels = l :: d'.levels := by
  obtain ⟨⟨l, outer⟩, hi, h⟩ := Option.bind_eq_some_iff.1 h
  cases h
  rcases d with ⟨_ | ⟨l', outer'⟩, items⟩
  · cases hi
  · obtain ⟨hk, hi⟩ := Option.ite_none_right_eq_some.1 hi
    cases hi
    exact ⟨_, hk, rfl⟩

theorem loops_closeChain (negated : Bool) (h : d.closeBlock (.ofChain negated) = some d') :
    Levels.loops d'.levels = Levels.loops d.levels := by
  obtain ⟨⟨before, o⟩, hk, hl⟩ := closeBlock_loops h
  rw [hl]
  cases o with
  | element e key features => cases hk
  | chain negated' span past current => rfl
  | loop isFor span binding collection =>
    cases negated <;> cases isFor <;>
      simp [Opening.kind?, BlockKind.ofChain, BlockKind.ofLoop] at hk

theorem loops_closeLoop (isFor : Bool) (h : d.closeBlock (.ofLoop isFor) = some d') :
    Levels.loops d'.levels = (Levels.loops d.levels).tail := by
  obtain ⟨⟨before, o⟩, hk, hl⟩ := closeBlock_loops h
  rw [hl]
  cases o with
  | element e key features => cases hk
  | loop isFor' span binding collection => rfl
  | chain negated span past current =>
    cases negated <;> cases isFor <;>
      simp [Opening.kind?, BlockKind.ofChain, BlockKind.ofLoop] at hk

theorem loops_nextClause {next : Option (Expr × Bool)} (h : d.nextClause next = some d') :
    Levels.loops d'.levels = Levels.loops d.levels := by
  rcases d with ⟨_ | ⟨⟨before, o⟩, outer⟩, items⟩
  · cases h
  cases o with
  | element e key features => cases h
  | loop isFor span binding collection => cases h
  | chain negated span past current =>
    rcases current with _ | ⟨e, negate⟩
    · cases h
    · cases h
      rfl

theorem loops_closeTag {name : String} (h : d.closeTag name = some d') :
    Levels.loops d'.levels = Levels.loops d.levels := by
  rcases d with ⟨_ | ⟨⟨before, o⟩, outer⟩, items⟩
  · cases h
  cases o with
  | element e key features =>
    obtain ⟨-, h⟩ := Option.ite_none_right_eq_some.1 h
    cases h
    rfl
  | chain negated span past current => cases h
  | loop isFor span binding collection => cases h

/-- The loops around a draft change with a token as the token says. -/
theorem loops_addPiece {piece : Piece} (h : d.addPiece knows piece = some d') :
    Levels.loops d'.levels = piece.loops (Levels.loops d.levels) := by
  cases piece with
  | text text =>
    cases h
    rfl
  | declaration markup =>
    cases h
    rfl
  | closeTag tag => exact loops_closeTag h
  | openTag tag =>
    obtain ⟨features, -, h⟩ := Option.bind_eq_some_iff.1 h
    simp only at h
    split at h <;> cases h <;> rfl
  | directive directive span =>
    cases directive with
    | ifOpen e | unlessOpen e | html e | json e | expression e =>
      obtain ⟨e, -, h⟩ := Option.bind_eq_some_iff.1 h
      cases h
      rfl
    | eachOpen e binding | forOpen binding e =>
      obtain ⟨e, -, h⟩ := Option.bind_eq_some_iff.1 h
      cases h
      rfl
    | elseIf e =>
      obtain ⟨e, -, h⟩ := Option.bind_eq_some_iff.1 h
      exact loops_nextClause h
    | elseOnly => exact loops_nextClause h
    | ifClose => exact loops_closeChain false h
    | unlessClose => exact loops_closeChain true h
    | eachClose => exact loops_closeLoop false h
    | forClose => exact loops_closeLoop true h

end Draft

/-! ## Faults of nesting -/

section

variable {α β : Type}

/-- Whatever fault a computation ends with is one of nesting. -/
def OnlyNesting (x : Except Fault α) : Prop :=
  ∀ fault, x = .error fault → fault.cause.kind = .nesting

theorem onlyNesting_ok (a : α) : OnlyNesting (.ok a) := nofun

theorem onlyNesting_error {fault : Fault} (h : fault.cause.kind = .nesting) :
    OnlyNesting (.error fault : Except Fault α) := by
  rintro _ ⟨⟩
  exact h

theorem OnlyNesting.bind {x : Except Fault α} {f : α → Except Fault β} (h : OnlyNesting x)
    (hf : ∀ a, x = .ok a → OnlyNesting (f a)) : OnlyNesting (x >>= f) := by
  cases x with
  | error fault => exact onlyNesting_error (h fault rfl)
  | ok a => exact hf a rfl

theorem OnlyNesting.map {x : Except Fault α} (h : OnlyNesting x) (f : α → β) :
    OnlyNesting (x.map f) := by
  cases x with
  | error fault => exact onlyNesting_error (h fault rfl)
  | ok a => exact onlyNesting_ok _

theorem Refines.onlyNesting {R : α → β → Prop} {x : Except Fault α} {o : Option β}
    (h : Refines R x o) (ho : o.isSome = true) : OnlyNesting x := by
  obtain ⟨b, hb⟩ := Option.isSome_iff_exists.1 ho
  obtain ⟨a, rfl, -⟩ := h.some hb
  exact onlyNesting_ok a

end

namespace Builder

variable {b : Builder} {d : Draft}

theorem closeTag_onlyNesting (b : Builder) (tag : Tag) : OnlyNesting (b.closeTag tag) := by
  unfold closeTag
  simp only
  split
  · split
    · exact onlyNesting_error rfl
    · split
      · exact onlyNesting_ok _
      · exact onlyNesting_error rfl
  · exact onlyNesting_error rfl

theorem checkElements_onlyNesting (b : Builder) (block : OpenBlock) :
    OnlyNesting (b.checkElements block) := by
  unfold checkElements
  split
  · exact onlyNesting_error rfl
  · exact onlyNesting_ok _

theorem elseBlock_onlyNesting (b : Builder) (directive : Directive) (span : Span) :
    OnlyNesting (b.elseBlock directive span) := by
  unfold elseBlock
  split
  · split
    · exact (checkElements_onlyNesting b _).map _
    · exact onlyNesting_error rfl
  · exact onlyNesting_error rfl

theorem popBlock_onlyNesting (b : Builder) (kind : BlockKind) (directive : Directive)
    (span : Span) : OnlyNesting (b.popBlock kind directive span) := by
  unfold popBlock
  split
  · exact onlyNesting_error rfl
  · split
    · exact (checkElements_onlyNesting b _).map _
    · exact onlyNesting_error rfl

theorem closeConditional_onlyNesting (b : Builder) (kind : BlockKind) (directive : Directive)
    (span : Span) : OnlyNesting (b.closeConditional kind directive span) :=
  (popBlock_onlyNesting b kind directive span).bind fun _ _ => onlyNesting_ok _

theorem closeLoop_onlyNesting (b : Builder) (kind : BlockKind) (directive : Directive)
    (span : Span) : OnlyNesting (b.closeLoop kind directive span) :=
  (popBlock_onlyNesting b kind directive span).bind fun _ _ => onlyNesting_ok _

theorem finish_onlyNesting (b : Builder) : OnlyNesting b.finish := by
  unfold finish
  split
  · exact onlyNesting_error rfl
  · exact onlyNesting_ok _

/-- A directive whose expression can be read fails only for where it stands. -/
theorem addDirective_onlyNesting (h : b.Holds d) {directive : Directive} {span : Span}
    (hr : (Piece.directive directive span).Readable knows d.names) :
    OnlyNesting (b.addDirective knows directive span) := by
  cases directive with
  | ifOpen e | unlessOpen e | eachOpen e binding | forOpen binding e | html e | json e
  | expression e =>
    refine (addDirective_refines h knows span _).onlyNesting ?_
    obtain ⟨e', he⟩ := hr.expr e rfl
    simp [Draft.addDirective, Draft.openChain, Draft.openLoop, Draft.emit, he]
  | elseIf e =>
    obtain ⟨e', he⟩ := hr.expr e rfl
    refine (elseBlock_onlyNesting b _ span).bind fun block _ => ?_
    refine ((expr_refines h knows e).onlyNesting ?_).bind fun _ _ => onlyNesting_ok _
    simp [he]
  | elseOnly => exact (elseBlock_onlyNesting b _ span).bind fun _ _ => onlyNesting_ok _
  | ifClose => exact closeConditional_onlyNesting b .ifBlock _ span
  | unlessClose => exact closeConditional_onlyNesting b .unlessBlock _ span
  | eachClose => exact closeLoop_onlyNesting b .eachBlock _ span
  | forClose => exact closeLoop_onlyNesting b .forBlock _ span

theorem addPiece_onlyNesting (h : b.Holds d) {piece : Piece}
    (hr : piece.Readable knows d.names) : OnlyNesting (b.addPiece knows piece) := by
  cases piece with
  | text text => exact onlyNesting_ok _
  | declaration markup => exact onlyNesting_ok _
  | closeTag tag => exact closeTag_onlyNesting b tag
  | directive directive span => exact addDirective_onlyNesting h hr
  | openTag tag =>
    refine (openTag_refines h knows tag).onlyNesting ?_
    obtain ⟨features, hf⟩ := hr.features
    rw [Draft.openTag, hf]
    simp only [Option.bind_eq_bind, Option.bind_some]
    split <;> rfl

/-- Tokens that can be read fail only for how they are nested. -/
theorem foldlM_onlyNesting : ∀ (pieces : List Piece) (b : Builder) (d : Draft), b.Holds d →
    Pieces.Readable knows (Levels.loops d.levels) pieces →
      OnlyNesting (pieces.foldlM (addPiece knows) b)
  | [], b, d, _, _ => onlyNesting_ok b
  | piece :: rest, b, d, h, ⟨hp, hr⟩ => by
    rw [Levels.namesIn_loops] at hp
    rw [List.foldlM_cons]
    refine (addPiece_onlyNesting h hp).bind fun b' hb => ?_
    obtain ⟨d', hd, h'⟩ := (addPiece_refines knows b d piece h).ok hb
    rw [← Draft.loops_addPiece hd] at hr
    exact foldlM_onlyNesting rest b' d' h' hr

/-- Tokens whose insides were read are added one after the other. -/
theorem foldlM_addToken_eq (source : List Char) : ∀ (tokens : List Markup.Token)
    (pieces : List Piece) (b : Builder), tokens.mapM (Piece.ofToken source) = .ok pieces →
      tokens.foldlM (addToken knows source) b = pieces.foldlM (addPiece knows) b
  | [], pieces, b, h => by
    cases h
    rfl
  | token :: tokens, pieces, b, h => by
    rw [List.mapM_cons] at h
    cases hp : Piece.ofToken source token with
    | error fault =>
      rw [hp] at h
      cases h
    | ok piece =>
      cases hps : tokens.mapM (Piece.ofToken source) with
      | error fault =>
        rw [hp, hps] at h
        cases h
      | ok others =>
        rw [hp, hps] at h
        cases h
        rw [List.foldlM_cons, List.foldlM_cons, addToken_eq, hp]
        congr 1
        funext b'
        exact foldlM_addToken_eq source tokens others b' hps

end Builder

/-! ## Templates that compile -/

/-- A source whose tokens can be read compiles exactly if they are properly nested, and fails with a
fault of nesting otherwise. -/
theorem compile_ok_iff_wellNested {source : String} {tokens : List Markup.Token}
    {pieces : List Piece} (ht : Markup.tokens source.toList = (tokens, none))
    (hp : tokens.mapM (Piece.ofToken source.toList) = .ok pieces)
    (hr : Pieces.Readable knows [] pieces) :
    ((∃ program, (compile knows source).program = .ok program) ↔ WellNested pieces) ∧
      ∀ fault, (compile knows source).program = .error fault → fault.cause.kind = .nesting := by
  have compiled : (compile knows source).program =
      pieces.foldlM (Builder.addPiece knows) .empty >>= Builder.finish := by
    rw [compile_program, ht]
    simp only [Builder.foldlM_addToken_eq source.toList tokens pieces .empty hp]
  have outlined : outline? knows source =
      pieces.foldlM (Draft.addPiece knows) .empty >>= Draft.finish := by
    unfold outline?
    simp only [ht, hp]
    rfl
  refine ⟨⟨?_, fun hw => ?_⟩, ?_⟩
  · rintro ⟨program, hc⟩
    obtain ⟨items, ho, -⟩ := (compile_refines knows source).ok hc
    rw [outlined] at ho
    obtain ⟨d, hd, hf⟩ := Option.bind_eq_some_iff.1 ho
    exact Draft.foldlM_closes pieces hd (d.finish_isSome_iff.1 (by simp [hf]))
  · obtain ⟨d, hd, hb⟩ := Draft.foldlM_wellNested hw hr
    obtain ⟨items, hf⟩ := Option.isSome_iff_exists.1 (d.finish_isSome_iff.2 hb)
    have ho : outline? knows source = some items := by rw [outlined, hd, ← hf]; rfl
    obtain ⟨program, hc, -⟩ := (compile_refines knows source).some ho
    exact ⟨program, hc⟩
  · rw [compiled]
    exact (Builder.foldlM_onlyNesting pieces .empty .empty Builder.empty_holds hr).bind
      fun b _ => b.finish_onlyNesting

/-- A loop inside of an element that is left open. -/
theorem compile_ok_iff_wellNested_loop :
    let source := "<ul>\x7b#each xs as x\x7d<li>\x7bx\x7d</li>\x7b/each\x7d"
    let knows : String → Bool := fun _ => false
    ∃ tokens pieces, Markup.tokens source.toList = (tokens, none) ∧
      tokens.mapM (Piece.ofToken source.toList) = .ok pieces ∧ Pieces.Readable knows [] pieces ∧
      ((∃ program, (compile knows source).program = .ok program) ↔ WellNested pieces) ∧
        ∀ fault, (compile knows source).program = .error fault → fault.cause.kind = .nesting := by
  intro source knows
  let tokens : List Markup.Token :=
    [.tag ⟨0, "<ul>".toList⟩, .braced ⟨5, "#each xs as x".toList⟩, .tag ⟨19, "<li>".toList⟩,
      .braced ⟨24, ['x']⟩, .tag ⟨26, "</li>".toList⟩, .braced ⟨32, "/each".toList⟩]
  let pieces : List Piece :=
    [.openTag ⟨"ul", [], false, false, ⟨0, 4⟩⟩,
      .directive (.eachOpen ⟨11, ['x', 's']⟩ ⟨["x"], some "index", false⟩) ⟨5, 18⟩,
      .openTag ⟨"li", [], false, false, ⟨19, 23⟩⟩, .directive (.expression ⟨24, ['x']⟩) ⟨24, 25⟩,
      .closeTag ⟨"li", [], true, false, ⟨26, 31⟩⟩, .directive .eachClose ⟨32, 37⟩]
  have ht : Markup.tokens source.toList = (tokens, none) := by decide +kernel
  have hp : tokens.mapM (Piece.ofToken source.toList) = .ok pieces := by decide +kernel
  have hr : Pieces.Readable knows [] pieces := by
    simp only [pieces, Pieces.Readable, Piece.Readable, Directive.expr?, Option.mem_def,
      Option.some.injEq, forall_eq', List.not_mem_nil, IsEmpty.forall_iff, implies_true, and_true,
      true_and, reduceCtorEq]
    exact ⟨rfl, rfl⟩
  exact ⟨tokens, pieces, ht, hp, hr, compile_ok_iff_wellNested ht hp hr⟩

end LiveTemplate
