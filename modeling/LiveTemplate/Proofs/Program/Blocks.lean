/-
The builder and its draft go along with each other over the directives. A block opens with targets
that are not known yet: those of its tests, its exits and its end. They are filled in where a clause
ends and where the block closes, and the code is then the code of the closed block.
-/
import LiveTemplate.Proofs.Program.Refinement

namespace LiveTemplate

open Markup

/-! ## Targets -/

/-- Lets the jumps at some positions go to a target. -/
def retargetAll (target : Nat) (pcs : List Nat) (l : List Instr) : List Instr :=
  pcs.foldl (fun l pc => l.modify pc (Builder.retarget target)) l

theorem modify_at {α : Type} {A B : List α} {x : α} {f : α → α} {i : Nat} (h : A.length = i) :
    (A ++ x :: B).modify i f = A ++ f x :: B := by
  subst h
  induction A with
  | nil => rfl
  | cons a A ih => rw [List.cons_append, List.length_cons, List.modify_succ_cons, ih]; rfl

namespace PastClauses

/-- Filling in the exits of the clauses leads them to the end of the conditional. -/
theorem retarget_exits (stop stop' : Nat) : ∀ (past : List PastClause) (p : Place)
    (A B : List Instr), A.length = p.pc →
      retargetAll stop (exits p past) (A ++ (code p stop' past ++ B)) =
        A ++ (code p stop past ++ B)
  | [], _, _, _, _ => rfl
  | c :: rest, p, A, B, h => by
    have hl : (A ++ .branch c.test c.negate (p + (.one + (Items.room c.body + .one))).pc
        :: Items.code (p + .one) c.body).length = (p + (.one + Items.room c.body)).pc := by
      simp only [List.length_append, List.length_cons, Items.code_length, h, Place.add_pc,
        Place.one_pc]
      omega
    have first := modify_at (f := Builder.retarget stop) (x := .jump stop')
      (B := code (p + (.one + (Items.room c.body + .one))) stop' rest ++ B) hl
    have others := retarget_exits stop stop' rest (p + (.one + (Items.room c.body + .one)))
      (A ++ .branch c.test c.negate (p + (.one + (Items.room c.body + .one))).pc
        :: Items.code (p + .one) c.body ++ [.jump stop]) B (by
          rw [List.length_append, hl]
          simp only [Place.add_pc, Place.one_pc, List.length_singleton]
          omega)
    simp only [retargetAll, exits, code, List.foldl_cons, List.append_assoc, List.cons_append,
      List.nil_append] at first others ⊢
    rw [first]
    exact others

variable {last : Clauses}

theorem followedBy_append (last : Clauses) (more : List PastClause) : ∀ past : List PastClause,
    followedBy last (past ++ more) = followedBy (followedBy last more) past
  | [] => rfl
  | c :: rest => by rw [List.cons_append, followedBy, followedBy_append last more rest, followedBy]

theorem followedBy_isDone (h : last.isDone = false) : ∀ past : List PastClause,
    (followedBy last past).isDone = false
  | [] => h
  | _ :: _ => rfl

theorem room_followedBy (h : last.isDone = false) : ∀ past : List PastClause,
    (followedBy last past).room = room past + last.room
  | [] => (Place.start_add _).symm
  | c :: rest => by
    rw [followedBy, Clauses.room, room_followedBy h rest, Clauses.exitRoom,
      followedBy_isDone h rest, room]
    simp only [Bool.false_eq_true, if_false, Place.add_assoc]

theorem code_followedBy (h : last.isDone = false) (stop : Nat) : ∀ (past : List PastClause)
    (p : Place), (followedBy last past).code p stop =
      code p stop past ++ last.code (p + room past) stop
  | [], _ => rfl
  | c :: rest, p => by
    rw [followedBy, Clauses.code, Clauses.exit, Clauses.next, Clauses.exitRoom,
      followedBy_isDone h rest, code_followedBy h stop rest, code, room]
    simp only [Bool.false_eq_true, if_false, List.cons_append, List.append_assoc, List.nil_append,
      Place.add_assoc]

theorem tests_followedBy (last : Clauses) : ∀ past : List PastClause,
    (followedBy last past).tests = past.map PastClause.test ++ last.tests
  | [] => rfl
  | c :: rest => by rw [followedBy, Clauses.tests, tests_followedBy last rest]; rfl

theorem bodyReads_followedBy (last : Clauses) : ∀ past : List PastClause,
    (followedBy last past).bodyReads = reads past ++ last.bodyReads
  | [] => rfl
  | c :: rest => by
    rw [followedBy, Clauses.bodyReads, bodyReads_followedBy last rest, reads, reads,
      List.flatMap_cons, List.append_assoc]

theorem code_append (stop : Nat) (more : List PastClause) : ∀ (past : List PastClause) (p : Place),
    code p stop (past ++ more) = code p stop past ++ code (p + room past) stop more
  | [], _ => rfl
  | c :: rest, p => by
    rw [List.cons_append, code, code_append stop more rest, code, room]
    simp only [List.cons_append, List.append_assoc, Place.add_assoc]

theorem exits_append (more : List PastClause) : ∀ (past : List PastClause) (p : Place),
    exits p (past ++ more) = exits p past ++ exits (p + room past) more
  | [], _ => rfl
  | c :: rest, p => by
    rw [List.cons_append, exits, exits_append more rest, exits, room]
    simp only [List.cons_append, Place.add_assoc]

theorem room_append (more : List PastClause) : ∀ past : List PastClause,
    room (past ++ more) = room past + room more
  | [] => (Place.start_add _).symm
  | c :: rest => by
    rw [List.cons_append, room, room_append more rest, room, ← Place.add_assoc]

end PastClauses

namespace Builder

variable {b b' : Builder} {d : Draft}

theorem foldl_patch (pcs : List Nat) : ∀ b : Builder,
    (pcs.foldl patch b).instrs.toList = retargetAll b.instrs.size pcs b.instrs.toList ∧
      (pcs.foldl patch b).instrs.size = b.instrs.size ∧
      (pcs.foldl patch b).actions = b.actions ∧ (pcs.foldl patch b).elements = b.elements ∧
      (pcs.foldl patch b).blocks = b.blocks ∧ (pcs.foldl patch b).loopVars = b.loopVars := by
  induction pcs with
  | nil => exact fun b => ⟨rfl, rfl, rfl, rfl, rfl, rfl⟩
  | cons pc rest ih =>
    intro b
    obtain ⟨hi, hs, ha, he, hb, hv⟩ := ih (b.patch pc)
    have hsize : (b.patch pc).instrs.size = b.instrs.size := Array.size_modify
    have hlist : (b.patch pc).instrs.toList = b.instrs.toList.modify pc (retarget b.instrs.size) :=
      Array.toList_modify
    refine ⟨?_, hs.trans hsize, ha, he, hb, hv⟩
    rw [List.foldl_cons, hi, hsize, hlist]
    rfl

theorem lastClause_isDone (items : List Item) : ∀ current : Option (Expr × Bool),
    (Opening.lastClause items current).isDone = false
  | some _ | none => rfl

/-- The code of a conditional that is not closed, where the targets are filled in and the end is
appended, is the code of the closed one. -/
theorem closeChain_code {A : List Instr} {p : Place} (hA : A.length = p.pc) (negated : Bool)
    (span : Span) (past : List PastClause) (current : Option (Expr × Bool)) (items : List Item)
    {stop : Nat}
    (hs : stop = (p + (Opening.chain negated span past current).room + Items.room items).pc) :
    (retargetAll stop
        ((current.map fun _ => (p + (.acting + PastClauses.room past)).pc).toList
          ++ PastClauses.exits (p + .acting) past)
        (A ++ ((Opening.chain negated span past current).code p
          ++ Items.code (p + (Opening.chain negated span past current).room) items))
      ++ [Instr.closeConditional]).modify p.pc (setStop stop) =
      A ++ ((Opening.chain negated span past current).close items).code p := by
  have hstop : stop = (p + (Place.acting + (PastClauses.room past
      + (Opening.lastClause items current).room))).pc := by
    rw [hs]
    rcases current with _ | ⟨test, negate⟩ <;>
      simp [Opening.room, Opening.lastClause, Clauses.room, Clauses.exitRoom, Clauses.isDone] <;>
      omega
  have hp : (A ++ [Instr.openConditional p.action pendingTarget]).length = (p + .acting).pc := by
    rw [List.length_append, hA]
    rfl
  -- Only the current clause differs between the two ways in which a chain can end.
  have filled : retargetAll stop
      ((current.map fun _ => (p + (.acting + PastClauses.room past)).pc).toList
        ++ PastClauses.exits (p + .acting) past)
      (A ++ ((Opening.chain negated span past current).code p
        ++ Items.code (p + (Opening.chain negated span past current).room) items)) =
      A ++ .openConditional p.action pendingTarget
        :: (PastClauses.code (p + .acting) stop past
          ++ (Opening.lastClause items current).code (p + (.acting + PastClauses.room past)) stop) := by
    rcases current with _ | ⟨test, negate⟩
    · have := PastClauses.retarget_exits stop pendingTarget past (p + .acting)
        (A ++ [.openConditional p.action pendingTarget])
        (Items.code (p + (.acting + PastClauses.room past)) items) hp
      simpa [Opening.code, Opening.room, Opening.lastClause, Clauses.code] using this
    · have hb : (A ++ .openConditional p.action pendingTarget
          :: PastClauses.code (p + .acting) pendingTarget past).length =
          (p + (.acting + PastClauses.room past)).pc := by
        simp [PastClauses.code_length, hA]
        omega
      have hnext : (Clauses.next (p + (.acting + PastClauses.room past)) items .done).pc = stop := by
        rw [hstop]
        simp [Clauses.next, Opening.lastClause, Clauses.room]
        omega
      have first := modify_at (f := retarget stop) (x := .branch test negate pendingTarget)
        (B := Items.code (p + (.acting + PastClauses.room past) + .one) items) hb
      have exits := PastClauses.retarget_exits stop pendingTarget past (p + .acting)
        (A ++ [.openConditional p.action pendingTarget])
        (.branch test negate stop
          :: Items.code (p + (.acting + PastClauses.room past) + .one) items) hp
      simp only [retargetAll, Opening.code, Opening.room, Opening.lastClause, Clauses.code,
        Clauses.exit, Clauses.isDone, hnext, Option.map_some, Option.toList_some, Option.isSome_some,
        List.map_cons, List.map_nil, List.foldl_cons, List.append_assoc, List.cons_append,
        List.nil_append, List.append_nil, if_true, Place.add_assoc, retarget] at first exits ⊢
      rw [first]
      exact exits
  have hblock : Block.stop p (.chain (PastClauses.followedBy (Opening.lastClause items current)
      past)) = stop := by
    rw [Block.stop, PastClauses.room_followedBy (lastClause_isDone items current), hstop]
  rw [filled, List.append_assoc, List.cons_append, modify_at hA, Opening.close, Item.code,
    Block.code, hblock, PastClauses.code_followedBy (lastClause_isDone items current),
    Place.add_assoc]
  rfl

/-- The code of a loop that is not closed, with its step filled in and its end appended, is the
code of the closed one. -/
theorem closeLoop_code {A : List Instr} {p : Place} (hA : A.length = p.pc) (isFor : Bool)
    (span : Span) (binding : LoopBinding) (collection : Expr) (items : List Item) {stop : Nat}
    (hs : stop = (p + (Opening.loop isFor span binding collection).room + Items.room items).pc + 1) :
    (((A ++ ((Opening.loop isFor span binding collection).code p
          ++ Items.code (p + (Opening.loop isFor span binding collection).room) items)
        ++ [Instr.jump (p.pc + 1)]).modify (p.pc + 1) (retarget stop))
      ++ [Instr.closeLoop]).modify p.pc (setStop stop) =
      A ++ ((Opening.loop isFor span binding collection).close items).code p := by
  have hblock : Block.stop p (.loop binding collection items) = stop := by
    rw [hs]
    simp [Block.stop, Opening.room]
    omega
  have hstep : (A ++ [Instr.openLoop p.action binding collection pendingTarget]).length = p.pc + 1 := by
    rw [List.length_append, hA]
    rfl
  have step := modify_at (f := retarget stop) (x := .iterate pendingTarget)
    (B := Items.code (p + (.acting + .one)) items ++ [.jump (p.pc + 1)]) hstep
  simp only [Opening.code, Opening.room, Opening.close, Item.code, Block.code, hblock,
    List.append_assoc, List.cons_append, List.nil_append] at step ⊢
  rw [step, List.append_assoc, List.cons_append, modify_at hA]
  simp only [List.append_assoc, List.cons_append, List.nil_append]
  rfl

/-! ## Blocks -/

theorem addEmit_refines (h : b.Holds d) (knows : String → Bool) (region : Region)
    (mode : EmitMode) : Refines Holds (b.addEmit knows region mode) (d.emit knows region mode) := by
  refine (expr_refines h knows region).bind fun e e' he => ?_
  subst he
  refine h.append ?_
  rw [← h.place_eq]
  exact extends_action b .text region.span e _

theorem openConditional_refines (h : b.Holds d) (knows : String → Bool) (negated : Bool)
    (test : Region) (span : Span) :
    Refines Holds (b.openConditional knows (.ofChain negated) test span)
      (d.openChain knows negated test span) := by
  refine (expr_refines h knows test).bind fun e e' he => ?_
  subst he
  have hp := h.place_eq
  have hn : (BlockKind.ofChain negated == BlockKind.unlessBlock) = negated := by
    cases negated <;> rfl
  have opened : Extends b (((b.addAction .conditional test.span e).2.push
        (.openConditional b.actions.size pendingTarget)).push
        (.branch e (BlockKind.ofChain negated == BlockKind.unlessBlock) pendingTarget))
      ((Opening.chain negated span [] (some (e, negated))).code d.here)
      (Opening.chain negated span [] (some (e, negated))).reads := by
    rw [hn, ← hp]
    exact (extends_action b .conditional test.span e _).trans (extends_push _ _)
  refine h.enter _ opened rfl rfl rfl ?_ (List.append_nil _).symm
  rw [← hp]
  rfl

theorem openLoop_refines (h : b.Holds d) (knows : String → Bool) (isFor : Bool)
    (collection : Region) (binding : LoopBinding) (span : Span) :
    Refines Holds (b.openLoop knows (.ofLoop isFor) collection binding span)
      (d.openLoop knows isFor collection binding span) := by
  refine (expr_refines h knows collection).bind fun e e' he => ?_
  subst he
  have hp := h.place_eq
  have opened : Extends b (((b.addAction .loop collection.span e).2.push
        (.openLoop b.actions.size binding e pendingTarget)).push (.iterate pendingTarget))
      ((Opening.loop isFor span binding e).code d.here)
      (Opening.loop isFor span binding e).reads := by
    rw [← hp]
    exact (extends_action b .loop collection.span e _).trans (extends_push _ _)
  refine h.enter _ opened rfl rfl rfl ?_ rfl
  rw [← hp]
  rfl

/-- What a builder takes off when the innermost level of its draft is a block. -/
structure Popped (b : Builder) (d : Draft) (kind : BlockKind) (popped : OpenBlock × Builder)
    (level : Level × List Level) : Prop where
  levels : d.levels = level.1 :: level.2
  kind : level.1.opening.kind? = some kind
  elements : b.elements = Levels.elements level.2
  block : level.1.opening.block? (Levels.place level.2 + Items.room level.1.before)
    b.elements.length = some popped.1
  builder : popped.2 = { b with blocks := Levels.blocks level.2 }

theorem popBlock_refines (h : b.Holds d) (kind : BlockKind) (directive : Directive) (span : Span) :
    Refines (Popped b d kind) (b.popBlock kind directive span) (d.innermost? kind) := by
  rcases d with ⟨_ | ⟨⟨before, o⟩, outer⟩, items⟩
  · refine .of_error (popBlock_error ?_ kind directive span)
    rw [h.blocks]
    exact fun _ hm => (nomatch hm)
  cases o with
  | element e key features =>
    exact .of_error (popBlock_error (h.element_innermost rfl).2.2 kind directive span)
  | chain negated s past current =>
    obtain ⟨he, hb⟩ := h.block_innermost rfl rfl
    rw [popBlock_cons hb rfl]
    show Refines _ (if BlockKind.ofChain negated = kind then _ else _)
      (if some (BlockKind.ofChain negated) = some kind then _ else _)
    by_cases hk : BlockKind.ofChain negated = kind
    · rw [if_pos hk, if_pos (congrArg some hk)]
      exact ⟨rfl, congrArg some hk, he, rfl, rfl⟩
    · rw [if_neg hk, if_neg fun hs => hk (Option.some.inj hs)]
      trivial
  | loop isFor s binding collection =>
    obtain ⟨he, hb⟩ := h.block_innermost rfl rfl
    rw [popBlock_cons hb rfl]
    show Refines _ (if BlockKind.ofLoop isFor = kind then _ else _)
      (if some (BlockKind.ofLoop isFor) = some kind then _ else _)
    by_cases hk : BlockKind.ofLoop isFor = kind
    · rw [if_pos hk, if_pos (congrArg some hk)]
      exact ⟨rfl, congrArg some hk, he, rfl, rfl⟩
    · rw [if_neg hk, if_neg fun hs => hk (Option.some.inj hs)]
      trivial

/-- The code before the innermost level ends where that level begins. -/
theorem before_length (l : Level) (outer : List Level) :
    (Levels.code outer ++ Items.code (Levels.place outer) l.before).length =
      (Levels.place outer + Items.room l.before).pc := by
  rw [List.length_append, Levels.code_length, Items.code_length]
  rfl

theorem Holds.instrs_cons {l : Level} {outer : List Level} (h : b.Holds d)
    (hl : d.levels = l :: outer) :
    b.instrs.toList = Levels.code outer ++ Items.code (Levels.place outer) l.before
      ++ (l.opening.code (Levels.place outer + Items.room l.before)
        ++ Items.code (Levels.place outer + Items.room l.before + l.opening.room) d.items) := by
  rw [h.instrs, Draft.code, hl, Levels.code, Levels.place]
  simp only [List.append_assoc]

theorem Holds.size_cons {l : Level} {outer : List Level} (h : b.Holds d)
    (hl : d.levels = l :: outer) : b.instrs.size =
      (Levels.place outer + Items.room l.before + l.opening.room + Items.room d.items).pc := by
  have := congrArg Place.pc h.place_eq
  rw [Draft.here, hl, Levels.place] at this
  exact this

theorem Holds.reads_cons {l : Level} {outer : List Level} (h : b.Holds d)
    (hl : d.levels = l :: outer) :
    b.actions.toList.map Action.reads = Levels.reads outer ++ Items.reads l.before
      ++ (l.opening.reads ++ Items.reads d.items) := by
  rw [h.reads, Draft.reads, hl, Levels.reads, List.append_assoc]

theorem Holds.names_cons {l : Level} {outer : List Level} (h : b.Holds d)
    (hl : d.levels = l :: outer) : b.loopVars = Levels.names outer ++ l.opening.names := by
  rw [h.loopVars, Draft.names, hl]
  rfl

theorem closeWith_instrs (b : Builder) (opened : Nat) (instr : Instr) :
    (b.closeWith opened instr).instrs.toList =
      (b.instrs.toList ++ [instr]).modify opened (setStop b.instrs.size) := by
  show ((b.instrs.push instr).modify opened (setStop b.instrs.size)).toList = _
  rw [Array.toList_modify, Array.toList_push]

theorem push_patch_size (b : Builder) (instr : Instr) (pc : Nat) :
    ((b.push instr).patch pc).instrs.size = b.instrs.size + 1 := by
  show ((b.instrs.push instr).modify pc _).size = _
  rw [Array.size_modify, Array.size_push]

theorem push_patch_instrs (b : Builder) (instr : Instr) (pc : Nat) :
    ((b.push instr).patch pc).instrs.toList =
      (b.instrs.toList ++ [instr]).modify pc (retarget (b.instrs.size + 1)) := by
  show ((b.instrs.push instr).modify pc (retarget (b.instrs.push instr).size)).toList = _
  rw [Array.toList_modify, Array.toList_push, Array.size_push]

theorem closeConditional_refines (h : b.Holds d) (negated : Bool) (directive : Directive)
    (span : Span) : Refines Holds (b.closeConditional (.ofChain negated) directive span)
      (d.closeBlock (.ofChain negated)) := by
  refine (popBlock_refines h (.ofChain negated) directive span).bind ?_
  rintro ⟨block, _⟩ ⟨⟨before, o⟩, outer⟩ ⟨hl, hk, he, hblock, rfl⟩
  cases o with
  | element e key features => cases hk
  | loop isFor s binding collection => cases isFor <;> cases negated <;> cases hk
  | chain n s past current =>
    cases hblock
    obtain ⟨hi, hs, ha, hel, hbl, hv⟩ := foldl_patch
      ((current.map fun _ => (Levels.place outer + Items.room before
          + (.acting + PastClauses.room past)).pc).toList
        ++ PastClauses.exits (Levels.place outer + Items.room before + .acting) past)
      { b with blocks := Levels.blocks outer }
    have code := closeChain_code (before_length ⟨before, .chain n s past current⟩ outer) n s past
      current d.items (h.size_cons hl)
    refine Holds.leave ?_ ?_ (hel.trans he) hbl ?_
    · rw [h.instrs_cons hl] at hi
      rw [closeWith_instrs]
      show (List.modify ((List.foldl patch _ _).instrs.toList ++ _) _
        (setStop (List.foldl patch _ _).instrs.size)) = _
      rw [hi, hs]
      exact code
    · show (List.foldl patch _ _).actions.toList.map Action.reads = _
      rw [ha, h.reads_cons hl, Opening.close, Item.reads, Block.reads, Opening.reads,
        PastClauses.tests_followedBy, PastClauses.bodyReads_followedBy]
      rcases current with _ | ⟨test, negate⟩
      · rfl
      · simp [Opening.lastClause, Clauses.tests, Clauses.bodyReads]
    · exact hv.trans ((h.names_cons hl).trans (List.append_nil _))

theorem closeLoop_refines (h : b.Holds d) (isFor : Bool) (directive : Directive) (span : Span) :
    Refines Holds (b.closeLoop (.ofLoop isFor) directive span) (d.closeBlock (.ofLoop isFor)) := by
  refine (popBlock_refines h (.ofLoop isFor) directive span).bind ?_
  rintro ⟨block, _⟩ ⟨⟨before, o⟩, outer⟩ ⟨hl, hk, he, hblock, rfl⟩
  cases o with
  | element e key features => cases hk
  | chain n s past current => cases n <;> cases isFor <;> cases hk
  | loop f s binding collection =>
    cases hblock
    have code := closeLoop_code (before_length ⟨before, .loop f s binding collection⟩ outer) f s
      binding collection d.items (congrArg Nat.succ (h.size_cons hl))
    refine Holds.leave ?_ ?_ he rfl ?_
    · show (Builder.closeWith (Builder.patch (Builder.push _ _) _) _ _).instrs.toList = _
      rw [closeWith_instrs, push_patch_instrs, push_patch_size]
      show (List.modify (List.modify (b.instrs.toList ++ _) _ _ ++ _) _ _) = _
      rw [h.instrs_cons hl]
      exact code
    · show b.actions.toList.map Action.reads = _
      rw [h.reads_cons hl]
      rfl
    · show b.loopVars.take (b.loopVars.length - binding.names.length) = _
      rw [h.names_cons hl, Opening.names, List.length_append, Nat.add_sub_cancel, List.take_left]

/-! ## Clauses -/

theorem Holds.reopen {before : List Item} {o : Opening} {outer : List Level}
    (hi : b'.instrs.toList = Levels.code outer ++ Items.code (Levels.place outer) before
      ++ o.code (Levels.place outer + Items.room before))
    (hr : b'.actions.toList.map Action.reads =
      Levels.reads outer ++ Items.reads before ++ o.reads)
    (he : b'.elements = o.element?.toList ++ Levels.elements outer)
    (hb : b'.blocks = (o.block? (Levels.place outer + Items.room before)
      (Levels.elements outer).length).toList ++ Levels.blocks outer)
    (hv : b'.loopVars = Levels.names outer ++ o.names) :
    b'.Holds ⟨⟨before, o⟩ :: outer, []⟩ where
  instrs := hi.trans (List.append_nil _).symm
  reads := hr.trans (List.append_nil _).symm
  elements := he.trans (Levels.elements_cons ⟨before, o⟩ outer).symm
  blocks := hb
  loopVars := hv

/-- The code of a conditional after its current clause was ended. -/
theorem endClause_code {A : List Instr} {p : Place} (hA : A.length = p.pc) (negated : Bool)
    (span : Span) (past : List PastClause) (e : Expr) (negate : Bool) (items : List Item)
    {size : Nat} (hs : size = (p + (Opening.chain negated span past (some (e, negate))).room
      + Items.room items).pc) :
    (A ++ ((Opening.chain negated span past (some (e, negate))).code p
        ++ Items.code (p + (Opening.chain negated span past (some (e, negate))).room) items)
      ++ [Instr.jump pendingTarget]).modify (p + (.acting + PastClauses.room past)).pc
        (retarget (size + 1)) =
      A ++ (Opening.chain negated span (past ++ [⟨e, negate, items⟩]) none).code p := by
  have hb : (A ++ Instr.openConditional p.action pendingTarget
      :: PastClauses.code (p + .acting) pendingTarget past).length =
      (p + (.acting + PastClauses.room past)).pc := by
    simp [PastClauses.code_length, hA]
    omega
  have hnext : (p + (Place.acting + (PastClauses.room past + (Place.one + (Items.room items
      + Place.one))))).pc = size + 1 := by
    rw [hs]
    simp [Opening.room]
    omega
  have first := modify_at (f := retarget (size + 1)) (x := .branch e negate pendingTarget)
    (B := Items.code (p + (.acting + PastClauses.room past) + .one) items
      ++ [.jump pendingTarget]) hb
  simp only [Opening.code, Opening.room, PastClauses.code_append, PastClauses.code,
    Option.toList_some, Option.toList_none, Option.isSome_some, List.map_cons, List.map_nil,
    List.append_assoc, List.cons_append, List.nil_append, List.append_nil, if_true,
    Place.add_assoc, hnext] at first ⊢
  exact first

theorem testReads_append (e : Expr) : ∀ tests : List Expr, tests ≠ [] →
    testReads (tests ++ [e]) = (testReads tests).union e.reads
  | first :: rest, _ => by
    show List.foldl _ _ (rest ++ [e]) = _
    rw [List.foldl_append]
    rfl

theorem addReads_reads (b : Builder) (id : ActionId) (e : Expr) :
    (b.addReads id e).actions.toList.map Action.reads =
      (b.actions.toList.map Action.reads).modify id fun r => r.union e.reads := by
  show (b.actions.modify id _).toList.map Action.reads = _
  rw [Array.toList_modify]
  refine List.ext_getElem? fun i => ?_
  rw [List.getElem?_map, List.getElem?_modify, List.getElem?_modify, List.getElem?_map,
    Option.map_eq_map, Option.map_eq_map, Option.map_map, Option.map_map]
  congr 1
  funext a
  by_cases hi : id = i
  · simp [hi, Action.reads, Reads.union]
  · simp [hi]

theorem elseBlock_refines (h : b.Holds d) (directive : Directive) (span : Span) :
    (∃ fault, b.elseBlock directive span = .error fault) ∧ (∀ test, d.nextClause test = none) ∨
      ∃ before negated s past e negate outer block,
        d.levels = ⟨before, .chain negated s past (some (e, negate))⟩ :: outer ∧
        (Opening.chain negated s past (some (e, negate))).block?
          (Levels.place outer + Items.room before) b.elements.length = some block ∧
        b.elseBlock directive span = .ok block := by
  rcases d with ⟨_ | ⟨⟨before, o⟩, outer⟩, items⟩
  · refine .inl ⟨elseBlock_error ?_ directive span, fun _ => rfl⟩
    rw [h.blocks]
    exact fun _ hm => (nomatch hm)
  cases o with
  | element e key features =>
    exact .inl ⟨elseBlock_error (h.element_innermost rfl).2.2 directive span, fun _ => rfl⟩
  | loop isFor s binding collection =>
    refine .inl ⟨?_, fun _ => rfl⟩
    rw [elseBlock_cons (h.block_innermost rfl rfl).2 rfl]
    cases isFor <;> exact ⟨_, rfl⟩
  | chain negated s past current =>
    obtain ⟨he, hb⟩ := h.block_innermost rfl rfl
    rcases current with _ | ⟨e, negate⟩
    · refine .inl ⟨?_, fun _ => rfl⟩
      rw [elseBlock_cons hb rfl]
      cases negated <;> exact ⟨_, rfl⟩
    · refine .inr ⟨before, negated, s, past, e, negate, outer, _, rfl, rfl, ?_⟩
      rw [elseBlock_cons hb rfl]
      cases negated <;> rfl

/-- The exits of a conditional after its current clause was ended. -/
theorem endClause_exits (p : Place) (negated : Bool) (span : Span) (past : List PastClause)
    (e : Expr) (negate : Bool) (items : List Item) {size : Nat}
    (hs : size = (p + (Opening.chain negated span past (some (e, negate))).room
      + Items.room items).pc) :
    PastClauses.exits (p + .acting) past ++ [size] =
      PastClauses.exits (p + .acting) (past ++ [⟨e, negate, items⟩]) := by
  rw [PastClauses.exits_append, hs]
  simp only [PastClauses.exits, Opening.room, Option.isSome_some, if_true, Place.add_assoc]

theorem reads_past_append (past : List PastClause) (c : PastClause) :
    PastClauses.reads (past ++ [c]) = PastClauses.reads past ++ Items.reads c.body := by
  rw [PastClauses.reads, List.flatMap_append, List.flatMap_cons, List.flatMap_nil, List.append_nil]
  rfl

theorem addElse_refines (h : b.Holds d) (directive : Directive) (span : Span) :
    Refines Holds (b.addElse directive span) (d.nextClause none) := by
  unfold addElse
  rcases elseBlock_refines h directive span with ⟨⟨fault, he⟩, hd⟩ |
    ⟨before, negated, s, past, e, negate, outer, block, hl, hblock, he⟩
  · rw [he, hd]
    trivial
  cases hblock
  rw [he, Draft.nextClause, hl]
  have hsize := h.size_cons hl
  obtain ⟨hel, hb⟩ := h.block_innermost hl rfl
  refine Holds.reopen ?_ ?_ hel ?_ (h.names_cons hl)
  · show (Builder.patch (Builder.push _ _) _).instrs.toList = _
    rw [push_patch_instrs, h.instrs_cons hl]
    exact endClause_code (before_length ⟨before, .chain negated s past (some (e, negate))⟩ outer)
      negated s past e negate d.items hsize
  · show b.actions.toList.map Action.reads = _
    rw [h.reads_cons hl, Opening.reads, Opening.reads, reads_past_append]
    simp
  · show _ :: List.drop 1 b.blocks = _
    rw [hb, ← hel]
    simp only [Opening.block?, ← endClause_exits _ negated s past e negate d.items hsize]
    rfl

theorem addElseIf_refines (h : b.Holds d) (knows : String → Bool) (directive : Directive)
    (test : Region) (span : Span) :
    Refines Holds (b.addElseIf knows directive test span)
      (do d.nextClause (some (← read? knows d.names test, false))) := by
  unfold addElseIf
  rcases elseBlock_refines h directive span with ⟨⟨fault, he⟩, hd⟩ |
    ⟨before, negated, s, past, e, negate, outer, block, hl, hblock, he⟩
  · -- The builder finds no chain before it reads the test, the draft only afterwards: both fail.
    rw [he]
    cases read? knows d.names test with
    | none => trivial
    | some e =>
      show Refines Holds _ (d.nextClause _)
      rw [hd]
      trivial
  rw [he]
  refine (expr_refines h knows test).bind fun e₁ e₂ he₁ => ?_
  subst he₁
  cases hblock
  rw [Draft.nextClause, hl]
  have hsize := h.size_cons hl
  obtain ⟨hel, hb⟩ := h.block_innermost hl rfl
  refine Holds.reopen ?_ ?_ hel ?_ (h.names_cons hl)
  · show (Array.push (Builder.patch (Builder.push _ _) _).instrs _).toList = _
    rw [Array.toList_push, push_patch_instrs]
    show List.modify (b.instrs.toList ++ _) _ _ ++ _ = _
    have code := endClause_code (before_length ⟨before, .chain negated s past (some (e, negate))⟩
      outer) negated s past e negate d.items hsize
    have branched : (Opening.chain negated s (past ++ [⟨e, negate, d.items⟩])
          (some (e₁, false))).code (Levels.place outer + Items.room before) =
        (Opening.chain negated s (past ++ [⟨e, negate, d.items⟩]) none).code
          (Levels.place outer + Items.room before) ++ [.branch e₁ false pendingTarget] := by
      simp [Opening.code]
    rw [branched, ← List.append_assoc, ← code, h.instrs_cons hl]
    rfl
  · show (Builder.addReads _ _ _).actions.toList.map Action.reads = _
    have hr : (Levels.reads outer ++ Items.reads before).length =
        (Levels.place outer + Items.room before).action := by
      rw [List.length_append, Levels.reads_length, Items.reads_length]
      rfl
    rw [addReads_reads, h.reads_cons hl, Opening.reads, Opening.reads, List.cons_append,
      modify_at hr, ← testReads_append e₁ _ (by simp), reads_past_append]
    simp
  · show _ :: List.drop 1 b.blocks = _
    rw [hb, ← hel]
    have hpc : (Builder.patch (Builder.push b (.jump pendingTarget))
          (Levels.place outer + Items.room before + (.acting + PastClauses.room past)).pc).instrs.size =
        (Levels.place outer + Items.room before
          + (.acting + PastClauses.room (past ++ [⟨e, negate, d.items⟩]))).pc := by
      rw [push_patch_size, hsize, PastClauses.room_append]
      simp [Opening.room, PastClauses.room]
      omega
    simp only [Opening.block?, ← endClause_exits _ negated s past e negate d.items hsize]
    rw [Option.map_some, Option.map_some, ← hpc]
    rfl

end Builder

end LiveTemplate
