/-
A builder writes drafts. Adding a token to a draft is an operation on trees, which never looks at
positions; the builder appends instructions instead. Here are the operations on drafts, what it
means that the builder goes along with one of them, and the tokens that leave no target open: texts
and tags.
-/
import LiveTemplate.Proofs.Program.Draft

namespace LiveTemplate

open Markup

/-! ## Failing along with each other -/

section

variable {α β γ δ : Type} {R : α → β → Prop} {S : γ → δ → Prop}

/-- A computation gives what an optional value holds, up to a relation, and fails where it holds
nothing. -/
def Refines (R : α → β → Prop) : Except Fault α → Option β → Prop
  | .ok a, some b => R a b
  | .error _, none => True
  | _, _ => False

theorem Refines.bind {x : Except Fault α} {o : Option β} {f : α → Except Fault γ}
    {g : β → Option δ} (h : Refines R x o) (hf : ∀ a b, R a b → Refines S (f a) (g b)) :
    Refines S (x >>= f) (o >>= g) := by
  rcases x with fault | a <;> rcases o with _ | b
  · trivial
  · exact h.elim
  · exact h.elim
  · exact hf a b h

theorem refines_toOption (x : Except Fault α) : Refines Eq x x.toOption := by
  cases x
  · trivial
  · rfl

theorem Refines.of_error {x : Except Fault α} (h : ∃ fault, x = .error fault) :
    Refines R x none := by
  obtain ⟨fault, rfl⟩ := h
  trivial

theorem Refines.ok {x : Except Fault α} {o : Option β} {a : α} (h : Refines R x o)
    (hx : x = .ok a) : ∃ b, o = some b ∧ R a b := by
  subst hx
  rcases o with _ | b
  · exact h.elim
  · exact ⟨b, rfl, h⟩

theorem Refines.some {x : Except Fault α} {o : Option β} {b : β} (h : Refines R x o)
    (ho : o = .some b) : ∃ a, x = .ok a ∧ R a b := by
  subst ho
  rcases x with fault | a
  · exact h.elim
  · exact ⟨a, rfl, h⟩

end

/-! ## Writing a draft -/

/-- Reads an expression where the given variables are in scope. -/
def read? (knows : String → Bool) (names : List String) (region : Region) : Option Expr :=
  (Expr.parse region >>= Expr.resolve ⟨knows, names, []⟩).toOption

/-- Reads a handler where the given variables are in scope. -/
def readHandler? (knows : String → Bool) (names : List String) (region : Region) :
    Option HandlerSource :=
  (Expr.parse region >>= Expr.resolveHandler ⟨knows, names, []⟩).toOption

/-- What an attribute adds to its element. -/
def feature? (knows : String → Bool) (names : List String) (a : Attribute) : Option Feature :=
  match a.value with
  | .plain value => some (.plain a.name value)
  | .flag => some (.flag a.name)
  | .dynamic region =>
    match a.event? with
    | some event => (readHandler? knows names region).map (.listener event)
    | none => (read? knows names region).map (.dynamic a.name)

/-- Whether an element has neither children nor a closing tag. -/
def Markup.Tag.standsAlone (tag : Tag) : Bool := tag.isSelfClosing || isVoid tag.name

/-- The part of a literal text: none for blank text with a line feed in it. -/
def textItems (text : List Char) : List Item :=
  if text.all Text.isBlank && text.contains '\n' then [] else [.text (String.ofList text)]

namespace Draft

/-- Appends parts. -/
def append (d : Draft) (items : List Item) : Draft := { d with items := d.items ++ items }

/-- Opens a part. -/
def enter (d : Draft) (opening : Opening) : Draft := ⟨⟨d.items, opening⟩ :: d.levels, []⟩

/-- Closes the innermost part, whose level is given together with the outer ones. -/
def leave (d : Draft) (l : Level) (outer : List Level) : Draft :=
  ⟨outer, l.before ++ [l.opening.close d.items]⟩

def openTag (knows : String → Bool) (d : Draft) (tag : Tag) : Option Draft := do
  let features ← tag.attributes.mapM (feature? knows d.names)
  let key := Builder.elementKey tag
  if tag.standsAlone then return d.append [.element tag.name key features []]
  else return d.enter (.element ⟨tag.name, tag.span⟩ key features)

def closeTag (d : Draft) (name : String) : Option Draft :=
  match d.levels with
  | ⟨before, .element e key features⟩ :: outer =>
    if e.name = name then some (d.leave ⟨before, .element e key features⟩ outer) else none
  | _ => none

def emit (knows : String → Bool) (d : Draft) (region : Region) (mode : EmitMode) :
    Option Draft := do
  let e ← read? knows d.names region
  return d.append [.block (.emit e mode)]

def openChain (knows : String → Bool) (d : Draft) (negated : Bool) (test : Region)
    (span : Span) : Option Draft := do
  let e ← read? knows d.names test
  return d.enter (.chain negated span [] (some (e, negated)))

/-- Ends a tested clause and begins the next one. -/
def nextClause (d : Draft) (test : Option (Expr × Bool)) : Option Draft :=
  match d.levels with
  | ⟨before, .chain negated span past (some (e, negate))⟩ :: outer =>
    some ⟨⟨before, .chain negated span (past ++ [⟨e, negate, d.items⟩]) test⟩ :: outer, []⟩
  | _ => none

def openLoop (knows : String → Bool) (d : Draft) (isFor : Bool) (collection : Region)
    (binding : LoopBinding) (span : Span) : Option Draft := do
  let e ← read? knows d.names collection
  return d.enter (.loop isFor span binding e)

/-- The innermost level, which has to be a block of the given kind, and the outer ones. -/
def innermost? (d : Draft) (kind : BlockKind) : Option (Level × List Level) :=
  match d.levels with
  | l :: outer => if l.opening.kind? = some kind then some (l, outer) else none
  | [] => none

def closeBlock (d : Draft) (kind : BlockKind) : Option Draft := do
  let (l, outer) ← d.innermost? kind
  return d.leave l outer

def addDirective (knows : String → Bool) (d : Draft) (span : Span) : Directive → Option Draft
  | .ifOpen test => d.openChain knows false test span
  | .unlessOpen test => d.openChain knows true test span
  | .elseIf test => do
    let e ← read? knows d.names test
    d.nextClause (some (e, false))
  | .elseOnly => d.nextClause none
  | .eachOpen collection binding => d.openLoop knows false collection binding span
  | .forOpen binding collection => d.openLoop knows true collection binding span
  | .ifClose => d.closeBlock .ifBlock
  | .unlessClose => d.closeBlock .unlessBlock
  | .eachClose => d.closeBlock .eachBlock
  | .forClose => d.closeBlock .forBlock
  | .html e => d.emit knows e .html
  | .json e => d.emit knows e .json
  | .expression e => d.emit knows e .text

def addPiece (knows : String → Bool) (d : Draft) : Piece → Option Draft
  | .text text => some (d.append (textItems text))
  | .declaration markup => some (d.append [.text markup])
  | .openTag tag => d.openTag knows tag
  | .closeTag tag => d.closeTag tag.name
  | .directive directive span => d.addDirective knows span directive

/-- The parts that come out when all levels are closed, which have to be elements. -/
def closeAll : List Level → List Item → Option (List Item)
  | [], items => some items
  | ⟨before, .element e key features⟩ :: outer, items =>
    closeAll outer (before ++ [(Opening.element e key features).close items])
  | _ :: _, _ => none

/-- The outline of a finished draft. -/
def finish (d : Draft) : Option (List Item) := closeAll d.levels d.items

end Draft

/-! ## Appending code -/

namespace Builder

variable {b b' : Builder} {d : Draft}

/-- A builder goes on by appending code, and changes nothing else. -/
structure Extends (b b' : Builder) (code : List Instr) (reads : List Reads) : Prop where
  instrs : b'.instrs.toList = b.instrs.toList ++ code
  reads : b'.actions.toList.map Action.reads = b.actions.toList.map Action.reads ++ reads
  elements : b'.elements = b.elements
  blocks : b'.blocks = b.blocks
  loopVars : b'.loopVars = b.loopVars

theorem Extends.refl (b : Builder) : Extends b b [] [] :=
  ⟨(List.append_nil _).symm, (List.append_nil _).symm, rfl, rfl, rfl⟩

theorem Extends.trans {b'' : Builder} {code code' : List Instr} {reads reads' : List Reads}
    (h : Extends b b' code reads) (h' : Extends b' b'' code' reads') :
    Extends b b'' (code ++ code') (reads ++ reads') where
  instrs := by rw [h'.instrs, h.instrs, List.append_assoc]
  reads := by rw [h'.reads, h.reads, List.append_assoc]
  elements := h'.elements.trans h.elements
  blocks := h'.blocks.trans h.blocks
  loopVars := h'.loopVars.trans h.loopVars

theorem extends_push (b : Builder) (instr : Instr) : Extends b (b.push instr) [instr] [] :=
  ⟨Array.toList_push, (List.append_nil _).symm, rfl, rfl, rfl⟩

/-- An action and the instruction that starts it. -/
theorem extends_action (b : Builder) (kind : ActionKind) (span : Span) (e : Expr) (instr : Instr) :
    Extends b ((b.addAction kind span e).2.push instr) [instr] [e.reads] where
  instrs := Array.toList_push
  reads := by
    show (b.actions.push _).toList.map Action.reads = _
    rw [Array.toList_push, List.map_append]
    rfl
  elements := rfl
  blocks := rfl
  loopVars := rfl

/-- The place that a builder has come to. -/
def place (b : Builder) : Place := ⟨b.instrs.size, b.actions.size⟩

theorem Holds.place_eq (h : b.Holds d) : b.place = d.here := by
  refine Place.ext ?_ ?_
  · rw [place, ← Array.length_toList, h.instrs, d.code_length]
  · rw [place, ← d.reads_length, ← h.reads, List.length_map, Array.length_toList]

theorem Extends.place_eq {code : List Instr} {reads : List Reads} {room : Place}
    (h : Extends b b' code reads) (hc : code.length = room.pc) (hr : reads.length = room.action) :
    b'.place = b.place + room := by
  refine Place.ext ?_ ?_
  · rw [place, ← Array.length_toList, h.instrs, List.length_append, Array.length_toList, hc]
    rfl
  · have := congrArg List.length h.reads
    rw [List.length_append, List.length_map, List.length_map, Array.length_toList,
      Array.length_toList, hr] at this
    exact this

theorem Holds.append (h : b.Holds d) {items : List Item}
    (he : Extends b b' (Items.code d.here items) (Items.reads items)) :
    b'.Holds (d.append items) where
  instrs := by
    rw [he.instrs, h.instrs, Draft.code, Draft.code, Draft.append, Items.code_append,
      List.append_assoc]
    rfl
  reads := by
    rw [he.reads, h.reads, Draft.reads, Draft.reads, Draft.append, Items.reads_append,
      List.append_assoc]
  elements := he.elements.trans h.elements
  blocks := he.blocks.trans h.blocks
  loopVars := he.loopVars.trans h.loopVars

theorem Holds.enter (h : b.Holds d) (o : Opening) {b'' : Builder}
    (he : Extends b b' (o.code d.here) o.reads) (hi : b''.instrs = b'.instrs)
    (ha : b''.actions = b'.actions) (hel : b''.elements = o.element?.toList ++ b.elements)
    (hb : b''.blocks = (o.block? d.here b.elements.length).toList ++ b.blocks)
    (hv : b''.loopVars = b.loopVars ++ o.names) : b''.Holds (d.enter o) where
  instrs := by
    show b''.instrs.toList = Levels.code _ ++ []
    rw [hi, he.instrs, h.instrs, List.append_nil]
    rfl
  reads := by
    show b''.actions.toList.map Action.reads = Levels.reads _ ++ []
    rw [ha, he.reads, h.reads, List.append_nil]
    rfl
  elements := by
    rw [hel, h.elements]
    show _ = List.filterMap _ (_ :: _)
    rw [List.filterMap_cons]
    cases o.element? <;> rfl
  blocks := by
    rw [hb, h.elements, h.blocks]
    rfl
  loopVars := by
    rw [hv, h.loopVars]
    rfl

/-! ## Texts and tags -/

theorem addText_holds (h : b.Holds d) (text : List Char) :
    (b.addText text).Holds (d.append (textItems text)) := by
  refine h.append ?_
  unfold addText textItems
  split
  · exact .refl b
  · exact extends_push b _

theorem expr_refines (h : b.Holds d) (knows : String → Bool) (region : Region) :
    Refines Eq (b.expr knows region) (read? knows d.names region) := by
  rw [← h.loopVars]
  exact refines_toOption _

theorem addAttribute_refines (knows : String → Bool) (b : Builder) (a : Attribute) :
    Refines (fun b' f => Extends b b' [f.instr b.place] f.reads) (addAttribute knows b a)
      (feature? knows b.loopVars a) := by
  unfold addAttribute feature?
  cases a.value with
  | plain value => exact extends_push b _
  | flag => exact extends_push b _
  | dynamic region =>
    cases a.event? with
    | some event =>
      show Refines _ _ (Option.map _ _)
      rw [Option.map_eq_bind]
      exact (refines_toOption _).bind fun _ _ e => e ▸ extends_push b _
    | none =>
      show Refines _ _ (Option.map _ _)
      rw [Option.map_eq_bind]
      exact (refines_toOption _).bind fun _ _ e => e ▸ extends_action b _ _ _ _

theorem addAttributes_refines (knows : String → Bool) :
    ∀ (attributes : List Attribute) (b : Builder),
      Refines (fun b' features => Extends b b' (Features.code b.place features)
          (features.flatMap Feature.reads))
        (attributes.foldlM (addAttribute knows) b)
        (attributes.mapM (feature? knows b.loopVars))
  | [], b => .refl b
  | a :: rest, b => by
    rw [List.foldlM_cons, List.mapM_cons]
    refine (addAttribute_refines knows b a).bind fun b₁ f h₁ => ?_
    have others := addAttributes_refines knows rest b₁
    rw [h₁.loopVars] at others
    have hp : b₁.place = b.place + f.room :=
      h₁.place_eq (by cases f <;> rfl) (by cases f <;> rfl)
    rw [← bind_pure (rest.foldlM (addAttribute knows) b₁)]
    refine others.bind fun b₂ features h₂ => ?_
    rw [hp] at h₂
    exact h₁.trans h₂

theorem openTag_refines (h : b.Holds d) (knows : String → Bool) (tag : Tag) :
    Refines Holds (b.openTag knows tag) (d.openTag knows tag) := by
  have opened := extends_push b (.createElement tag.name (elementKey tag))
  have hp : (b.push (.createElement tag.name (elementKey tag))).place = d.here + .one := by
    rw [← h.place_eq]
    exact opened.place_eq rfl rfl
  have attributes := addAttributes_refines knows tag.attributes
    (b.push (.createElement tag.name (elementKey tag)))
  rw [hp, opened.loopVars, h.loopVars] at attributes
  refine attributes.bind fun b₁ features h₁ => ?_
  have whole := opened.trans h₁
  unfold Tag.standsAlone
  split
  · refine h.append ?_
    have closed := whole.trans (extends_push b₁ .appendChild)
    rw [List.append_nil] at closed
    rw [Items.code_singleton, Items.reads_singleton, Item.code, Item.reads, Items.reads,
      List.append_nil]
    exact closed
  · refine h.enter (.element ⟨tag.name, tag.span⟩ (elementKey tag) features) whole rfl rfl ?_ ?_ ?_
    · show _ :: b₁.elements = _
      rw [whole.elements]
      rfl
    · exact whole.blocks
    · exact whole.loopVars.trans (List.append_nil _).symm

end Builder

/-! ## Innermost levels -/

namespace Levels

theorem blocks_cons (l : Level) (outer : List Level) :
    Levels.blocks (l :: outer) =
      (l.opening.block? (Levels.place outer + Items.room l.before)
        (Levels.elements outer).length).toList ++ Levels.blocks outer := rfl

theorem elements_cons (l : Level) (outer : List Level) :
    Levels.elements (l :: outer) = l.opening.element?.toList ++ Levels.elements outer := by
  unfold Levels.elements
  rw [List.filterMap_cons]
  cases l.opening.element? <;> rfl

theorem depth_le : ∀ (levels : List Level) (block : OpenBlock),
    block ∈ Levels.blocks levels → block.depth ≤ (Levels.elements levels).length
  | l :: outer, block, h => by
    rw [elements_cons, List.length_append]
    rw [blocks_cons] at h
    rcases List.mem_append.1 h with h | h
    · have hd : block.depth = (Levels.elements outer).length := by
        rcases l with ⟨before, _ | _ | _⟩ <;> simp [Opening.block?] at h <;> rw [h]
      omega
    · have := depth_le outer block h
      omega

end Levels

namespace Builder

variable {b b' : Builder} {d : Draft}

theorem checkElements_ok {block : OpenBlock} (h : b.elements.length ≤ block.depth) :
    b.checkElements block = .ok () := by
  unfold checkElements
  rw [List.getElem?_eq_none (by rw [List.length_reverse]; exact h)]

theorem checkElements_error {block : OpenBlock} (h : block.depth < b.elements.length) :
    ∃ fault, b.checkElements block = .error fault := by
  unfold checkElements
  rw [List.getElem?_eq_getElem (by rw [List.length_reverse]; exact h)]
  exact ⟨_, rfl⟩

/-- Where an element was opened last, no block can be closed. -/
theorem popBlock_error (h : ∀ block ∈ b.blocks, block.depth < b.elements.length) (kind : BlockKind)
    (directive : Directive) (span : Span) :
    ∃ fault, b.popBlock kind directive span = .error fault := by
  unfold popBlock
  cases hb : b.blocks with
  | nil => exact ⟨_, rfl⟩
  | cons block rest =>
    obtain ⟨fault, he⟩ := checkElements_error (h block (hb ▸ List.mem_cons_self))
    show ∃ fault, (if block.kind = kind then _ else _) = _
    split
    · exact ⟨fault, by rw [he]; rfl⟩
    · exact ⟨_, rfl⟩

theorem popBlock_cons {block : OpenBlock} {rest : List OpenBlock} (hb : b.blocks = block :: rest)
    (hd : block.depth = b.elements.length) (kind : BlockKind) (directive : Directive) (span : Span) :
    b.popBlock kind directive span =
      if block.kind = kind then .ok (block, { b with blocks := rest })
      else .error ⟨.mismatchedBlock block.kind.closer directive.describe, span⟩ := by
  unfold popBlock
  rw [hb]
  show (if block.kind = kind then _ else _) = _
  rw [checkElements_ok hd.ge]
  rfl

theorem elseBlock_error (h : ∀ block ∈ b.blocks, block.depth < b.elements.length)
    (directive : Directive) (span : Span) :
    ∃ fault, b.elseBlock directive span = .error fault := by
  unfold elseBlock
  cases hb : b.blocks with
  | nil => exact ⟨_, rfl⟩
  | cons block rest =>
    obtain ⟨fault, he⟩ := checkElements_error (h block (hb ▸ List.mem_cons_self))
    show ∃ fault, (if block.kind.isConditional && !block.hasElse then _ else _) = _
    split
    · exact ⟨fault, by rw [he]; rfl⟩
    · exact ⟨_, rfl⟩

theorem elseBlock_cons {block : OpenBlock} {rest : List OpenBlock} (hb : b.blocks = block :: rest)
    (hd : block.depth = b.elements.length) (directive : Directive) (span : Span) :
    b.elseBlock directive span =
      if block.kind.isConditional && !block.hasElse then .ok block
      else .error ⟨.unexpectedDirective directive.describe, span⟩ := by
  unfold elseBlock
  rw [hb]
  show (if block.kind.isConditional && !block.hasElse then _ else _) = _
  rw [checkElements_ok hd.ge]
  rfl

/-- Where an element was opened last, the innermost block began before it. -/
theorem Holds.element_innermost (h : b.Holds d) {before : List Item} {e : OpenElement}
    {key : Option String} {features : List Feature} {outer : List Level}
    (hl : d.levels = ⟨before, .element e key features⟩ :: outer) :
    b.elements = e :: Levels.elements outer ∧ b.blocks = Levels.blocks outer ∧
      ∀ block ∈ b.blocks, block.depth < b.elements.length := by
  have he : b.elements = e :: Levels.elements outer := by
    rw [h.elements, hl, Levels.elements_cons]
    rfl
  have hb : b.blocks = Levels.blocks outer := by
    rw [h.blocks, hl]
    rfl
  refine ⟨he, hb, fun block hm => ?_⟩
  rw [hb] at hm
  rw [he]
  exact Nat.lt_succ_of_le (Levels.depth_le outer block hm)

/-! ## Closing parts -/

theorem Holds.leave {l : Level} {outer : List Level}
    (hi : b'.instrs.toList = Levels.code outer ++ Items.code (Levels.place outer) l.before
      ++ (l.opening.close d.items).code (Levels.place outer + Items.room l.before))
    (hr : b'.actions.toList.map Action.reads =
      Levels.reads outer ++ Items.reads l.before ++ (l.opening.close d.items).reads)
    (he : b'.elements = Levels.elements outer) (hb : b'.blocks = Levels.blocks outer)
    (hv : b'.loopVars = Levels.names outer) : b'.Holds (d.leave l outer) where
  instrs := by
    rw [hi, Draft.code, Draft.leave, Items.code_append, Items.code_singleton, List.append_assoc]
  reads := by rw [hr, Draft.reads, Draft.leave, Items.reads_append, Items.reads_singleton, List.append_assoc]
  elements := he
  blocks := hb
  loopVars := hv

/-- Where a block was opened last, as many elements are open as when it began. -/
theorem Holds.block_innermost (h : b.Holds d) {l : Level} {outer : List Level}
    (hl : d.levels = l :: outer) (hn : l.opening.element? = none) :
    b.elements = Levels.elements outer ∧
      b.blocks = (l.opening.block? (Levels.place outer + Items.room l.before)
        b.elements.length).toList ++ Levels.blocks outer := by
  have he : b.elements = Levels.elements outer := by
    rw [h.elements, hl, Levels.elements_cons, hn]
    rfl
  refine ⟨he, ?_⟩
  rw [h.blocks, hl, Levels.blocks_cons, he]

theorem closeTag_cons {e : OpenElement} {rest : List OpenElement} (he : b.elements = e :: rest)
    (hd : ∀ block ∈ b.blocks, block.depth < b.elements.length) (tag : Tag) :
    b.closeTag tag =
      if e.name = tag.name then .ok ({ b with elements := rest }.push .appendChild)
      else .error ⟨.mismatchedTag e.name tag.name, tag.span⟩ := by
  have hlt : ¬ b.elements.length ≤ (b.blocks.head?.map OpenBlock.depth).getD 0 := by
    cases hh : b.blocks with
    | nil => simp [he]
    | cons block rest => exact Nat.not_le.2 (hd block (hh ▸ List.mem_cons_self))
  unfold closeTag
  simp only [if_neg hlt]
  rw [he]

theorem closeTag_error (hd : b.elements.length ≤ (b.blocks.head?.map OpenBlock.depth).getD 0)
    (tag : Tag) : ∃ fault, b.closeTag tag = .error fault := by
  unfold closeTag
  simp only [if_pos hd]
  split <;> exact ⟨_, rfl⟩

theorem closeTag_refines (h : b.Holds d) (tag : Tag) :
    Refines Holds (b.closeTag tag) (d.closeTag tag.name) := by
  rcases d with ⟨_ | ⟨⟨before, o⟩, outer⟩, items⟩
  · refine .of_error (closeTag_error ?_ tag)
    rw [h.elements]
    exact Nat.zero_le _
  cases o with
  | element e key features =>
    obtain ⟨he, hb, hd⟩ := h.element_innermost rfl
    rw [closeTag_cons he hd, Draft.closeTag]
    show Refines Holds (if e.name = tag.name then _ else _) (if e.name = tag.name then _ else _)
    split
    · refine Holds.leave ?_ ?_ rfl hb (h.loopVars.trans (List.append_nil _))
      · show (b.instrs.push _).toList = _
        rw [Array.toList_push, h.instrs, Draft.code, Levels.code, Levels.place, Opening.code,
          Opening.room, Opening.close, Item.code, Place.add_assoc]
        simp only [List.append_assoc, List.cons_append]
      · show b.actions.toList.map Action.reads = _
        rw [h.reads, Draft.reads, Levels.reads, Opening.reads, Opening.close, Item.reads]
        simp only [List.append_assoc]
    · trivial
  | chain negated span past current =>
    refine .of_error (closeTag_error ?_ tag)
    rw [(h.block_innermost rfl rfl).2]
    exact Nat.le_refl _
  | loop isFor span binding collection =>
    refine .of_error (closeTag_error ?_ tag)
    rw [(h.block_innermost rfl rfl).2]
    exact Nat.le_refl _

end Builder

end LiveTemplate
