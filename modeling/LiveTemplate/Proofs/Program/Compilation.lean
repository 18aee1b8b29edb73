/-
What the builder has laid out after any tokens is the code of the draft, and it fails exactly where
the draft cannot be continued. So a compiled program is always the code of an outline.
-/
import LiveTemplate.Proofs.Program.Blocks
import LiveTemplate.Proofs.Program.Placement

namespace LiveTemplate

open Markup

/-! ## Tokens -/

namespace Builder

variable {b : Builder} {d : Draft}

theorem addDirective_refines (h : b.Holds d) (knows : String → Bool) (span : Span) :
    ∀ directive : Directive, Refines Holds (b.addDirective knows directive span)
      (d.addDirective knows span directive)
  | .ifOpen test => openConditional_refines h knows false test span
  | .unlessOpen test => openConditional_refines h knows true test span
  | .elseIf test => addElseIf_refines h knows _ test span
  | .elseOnly => addElse_refines h _ span
  | .eachOpen collection binding => openLoop_refines h knows false collection binding span
  | .forOpen binding collection => openLoop_refines h knows true collection binding span
  | .ifClose => closeConditional_refines h false _ span
  | .unlessClose => closeConditional_refines h true _ span
  | .eachClose => closeLoop_refines h false _ span
  | .forClose => closeLoop_refines h true _ span
  | .html e => addEmit_refines h knows e .html
  | .json e => addEmit_refines h knows e .json
  | .expression e => addEmit_refines h knows e .text

/-- A builder and its draft take a token along with each other. -/
theorem addPiece_refines (knows : String → Bool) (b : Builder) (d : Draft) :
    ∀ piece : Piece, b.Holds d → Refines Holds (b.addPiece knows piece) (d.addPiece knows piece)
  | .text text, h => addText_holds h text
  | .declaration _, h => h.append (extends_push b _)
  | .openTag tag, h => openTag_refines h knows tag
  | .closeTag tag, h => closeTag_refines h tag
  | .directive directive span, h => addDirective_refines h knows span directive

theorem empty_holds : Builder.empty.Holds .empty := ⟨rfl, rfl, rfl, rfl, rfl⟩

end Builder

/-! ## Programs -/

theorem Levels.closeAll_spec : ∀ (levels : List Level) (items : List Item),
    match Draft.closeAll levels items with
    | some result => Levels.blocks levels = [] ∧
        Items.code .start result = Levels.code levels ++ Items.code (Levels.place levels) items
          ++ List.replicate (Levels.elements levels).length .appendChild ∧
        Items.reads result = Levels.reads levels ++ Items.reads items
    | none => Levels.blocks levels ≠ []
  | [], items => ⟨rfl, (List.append_nil _).symm, rfl⟩
  | ⟨before, .chain ..⟩ :: outer, items => List.cons_ne_nil _ _
  | ⟨before, .loop ..⟩ :: outer, items => List.cons_ne_nil _ _
  | ⟨before, .element e key features⟩ :: outer, items => by
    have ih := closeAll_spec outer (before ++ [(Opening.element e key features).close items])
    rw [Draft.closeAll]
    cases hc : Draft.closeAll outer (before ++ [(Opening.element e key features).close items]) with
    | none =>
      rw [hc] at ih
      exact ih
    | some result =>
      rw [hc] at ih
      obtain ⟨hb, hi, hr⟩ := ih
      refine ⟨hb, ?_, ?_⟩
      · rw [hi, Items.code_append, Items.code_singleton, Opening.close, Item.code,
          Levels.elements_cons, Levels.code, Levels.place, Opening.code, Opening.room]
        simp only [Opening.element?, Option.toList_some, List.cons_append, List.nil_append,
          List.length_cons, List.replicate_succ, List.append_assoc, Place.add_assoc]
      · rw [hr, Items.reads_append, Items.reads_singleton, Opening.close, Item.reads, Levels.reads,
          Opening.reads]
        simp only [List.append_assoc]

theorem Builder.Holds.finish_refines {b : Builder} {d : Draft} (h : b.Holds d) :
    Refines Program.LaidOut b.finish d.finish := by
  have spec := Levels.closeAll_spec d.levels d.items
  rw [← h.blocks, ← h.elements] at spec
  unfold finish Draft.finish
  cases hc : Draft.closeAll d.levels d.items with
  | none =>
    rw [hc] at spec
    cases hb : b.blocks with
    | nil => exact absurd hb spec
    | cons block rest => trivial
  | some items =>
    rw [hc] at spec
    obtain ⟨hb, hi, hr⟩ := spec
    rw [hb]
    refine ⟨?_, h.reads.trans hr.symm⟩
    rw [hi, Array.toList_append, h.instrs, Draft.code]

/-- The outline of a source, if it can be compiled with the functions known by name. -/
def outline? (knows : String → Bool) (source : String) : Option (List Item) :=
  match (Markup.tokens source.toList).2 with
  | none => do
    let pieces ← ((Markup.tokens source.toList).1.mapM (Piece.ofToken source.toList)).toOption
    let d ← pieces.foldlM (Draft.addPiece knows) .empty
    d.finish
  | some _ => none

theorem Builder.foldlM_addToken (knows : String → Bool) (source : List Char) :
    ∀ (tokens : List Markup.Token) (b : Builder) (d : Draft), b.Holds d →
      Refines Holds (tokens.foldlM (addToken knows source) b)
        (do
          let pieces ← (tokens.mapM (Piece.ofToken source)).toOption
          pieces.foldlM (Draft.addPiece knows) d)
  | [], b, d, h => h
  | token :: rest, b, d, h => by
    rw [List.foldlM_cons, List.mapM_cons, addToken_eq]
    cases Piece.ofToken source token with
    | error fault => trivial
    | ok piece =>
      have first := addPiece_refines knows b d piece h
      show Refines Holds (b.addPiece knows piece >>= _) _
      cases hb : b.addPiece knows piece with
      | error fault =>
        rw [hb] at first
        cases hm : rest.mapM (Piece.ofToken source) with
        | error fault => trivial
        | ok pieces =>
          show Refines Holds _ (d.addPiece knows piece >>= _)
          cases hd : d.addPiece knows piece with
          | none => trivial
          | some d' => exact (hd ▸ first).elim
      | ok b' =>
        obtain ⟨d', hd, h'⟩ := first.ok hb
        have others := foldlM_addToken knows source rest b' d' h'
        cases hm : rest.mapM (Piece.ofToken source) with
        | error fault =>
          rw [hm] at others
          exact others
        | ok pieces =>
          rw [hm] at others
          show Refines Holds _ (d.addPiece knows piece >>= _)
          rw [hd]
          exact others

theorem compile_program (knows : String → Bool) (source : String) :
    (compile knows source).program = (do
      let b ← (Markup.tokens source.toList).1.foldlM (Builder.addToken knows source.toList) .empty
      match (Markup.tokens source.toList).2 with
      | some fault => .error fault
      | none => b.finish) := by
  unfold compile
  simp only
  cases (Markup.tokens source.toList).1.foldlM (Builder.addToken knows source.toList) .empty with
  | error fault => rfl
  | ok b => cases (Markup.tokens source.toList).2 <;> rfl

/-- Compiling a source gives a program that is laid out as its outline, and fails where there is
no outline. -/
theorem compile_refines (knows : String → Bool) (source : String) :
    Refines Program.LaidOut (compile knows source).program (outline? knows source) := by
  have folded := Builder.foldlM_addToken knows source.toList (Markup.tokens source.toList).1
    .empty .empty Builder.empty_holds
  rw [compile_program, outline?]
  cases (Markup.tokens source.toList).2 with
  | some fault =>
    cases (Markup.tokens source.toList).1.foldlM (Builder.addToken knows source.toList) .empty <;>
      trivial
  | none =>
    show Refines _ _ (Except.toOption _ >>= fun pieces => List.foldlM _ _ pieces >>= Draft.finish)
    rw [← bind_assoc]
    exact folded.bind fun b d h => h.finish_refines

end LiveTemplate
