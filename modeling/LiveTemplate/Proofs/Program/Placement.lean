/-
Where the parts of an outline stand in a program. A program hosts a part at a place when the code
of the part stands there and the actions from there on read what those of the part read. A program
that hosts a part hosts all parts inside it, each at its own place.
-/
import LiveTemplate.Proofs.Program.Outline

namespace LiveTemplate

/-! ## Lists inside lists -/

/-- A list stands at a position of another one. -/
def Sits {α : Type} (all : List α) (i : Nat) (part : List α) : Prop :=
  ∀ j, j < part.length → all[i + j]? = part[j]?

namespace Sits

variable {α : Type} {all a b : List α} {i : Nat} {x : α}

theorem append : Sits all i (a ++ b) ↔ Sits all i a ∧ Sits all (i + a.length) b := by
  constructor
  · intro h
    refine ⟨fun j hj => ?_, fun j hj => ?_⟩
    · rw [h j (by rw [List.length_append]; omega), List.getElem?_append_left hj]
    · rw [Nat.add_assoc, h (a.length + j) (by rw [List.length_append]; omega),
        List.getElem?_append_right (by omega), Nat.add_sub_cancel_left]
  · rintro ⟨ha, hb⟩ j hj
    rw [List.length_append] at hj
    by_cases hja : j < a.length
    · rw [ha j hja, List.getElem?_append_left hja]
    · rw [List.getElem?_append_right (by omega), ← hb (j - a.length) (by omega)]
      congr 1
      omega

theorem cons : Sits all i (x :: a) ↔ all[i]? = some x ∧ Sits all (i + 1) a := by
  rw [show x :: a = [x] ++ a from rfl, append]
  refine and_congr ⟨fun h => h 0 (by simp), fun h j hj => ?_⟩ Iff.rfl
  obtain rfl : j = 0 := by simpa using hj
  exact h

theorem refl (all : List α) : Sits all 0 all := fun j _ => by rw [Nat.zero_add]

theorem length_le (h : Sits all i a) : a.length ≤ all.length := by
  by_contra hl
  have last := h (a.length - 1) (by omega)
  rw [List.getElem?_eq_none (by omega), List.getElem?_eq_getElem (by omega)] at last
  cases last

end Sits

/-! ## Programs -/

/-- A program has the given code at a place, and its actions from there on read what is given. -/
structure Hosts (program : Program) (p : Place) (code : List Instr) (reads : List Reads) : Prop where
  code : Sits program.instrs.toList p.pc code
  reads : Sits (program.actions.toList.map Action.reads) p.action reads

namespace Hosts

variable {program : Program} {p : Place} {code code' : List Instr} {reads reads' : List Reads}
  {instr : Instr}

theorem append (room : Place) (hc : code.length = room.pc) (hr : reads.length = room.action)
    (h : Hosts program p (code ++ code') (reads ++ reads')) :
    Hosts program p code reads ∧ Hosts program (p + room) code' reads' := by
  obtain ⟨c, c'⟩ := Sits.append.1 h.code
  obtain ⟨r, r'⟩ := Sits.append.1 h.reads
  rw [hc] at c'
  rw [hr] at r'
  exact ⟨⟨c, r⟩, ⟨c', r'⟩⟩

theorem cons (h : Hosts program p (instr :: code) reads) :
    program.instrs[p.pc]? = some instr ∧ Hosts program (p + .one) code reads := by
  obtain ⟨hi, hc⟩ := Sits.cons.1 h.code
  exact ⟨by simpa using hi, ⟨hc, h.reads⟩⟩

theorem consActing {r : Reads} (h : Hosts program p (instr :: code) (r :: reads)) :
    program.instrs[p.pc]? = some instr ∧
      (program.actions.toList.map Action.reads)[p.action]? = some r ∧
      Hosts program (p + .acting) code reads := by
  obtain ⟨hi, hc⟩ := Sits.cons.1 h.code
  obtain ⟨hr, hs⟩ := Sits.cons.1 h.reads
  exact ⟨by simpa using hi, hr, ⟨hc, hs⟩⟩

end Hosts

/-! ## Parts of a program -/

variable {program : Program} {p : Place}

/-- The program has the attributes and listeners at the place. -/
def Features.Hosted (program : Program) (p : Place) (features : List Feature) : Prop :=
  Hosts program p (Features.code p features) (features.flatMap Feature.reads)

/-- The program has the part at the place. -/
def Item.Hosted (program : Program) (p : Place) (i : Item) : Prop :=
  Hosts program p (i.code p) i.reads

def Items.Hosted (program : Program) (p : Place) (items : List Item) : Prop :=
  Hosts program p (Items.code p items) (Items.reads items)

def Block.Hosted (program : Program) (p : Place) (b : Block) : Prop :=
  Hosts program p (b.code p) b.reads

/-- The program has the clauses of a conditional that ends at `stop` at the place. -/
def Clauses.Hosted (program : Program) (p : Place) (stop : Nat) (clauses : Clauses) : Prop :=
  Hosts program p (clauses.code p stop) clauses.bodyReads

/-- What the actions of a program read, by their numbers. -/
def Program.reads? (program : Program) (action : ActionId) : Option Reads :=
  (program.actions.toList.map Action.reads)[action]?

theorem Features.Hosted.cons {f : Feature} {rest : List Feature}
    (h : Features.Hosted program p (f :: rest)) :
    program.instrs[p.pc]? = some (f.instr p) ∧
      (∀ name e, f = .dynamic name e → program.reads? p.action = some e.reads) ∧
      Features.Hosted program (p + f.room) rest := by
  unfold Features.Hosted at h
  rw [Features.code, List.flatMap_cons] at h
  cases f with
  | dynamic name e =>
    obtain ⟨hi, hr, hh⟩ := h.consActing
    refine ⟨hi, fun _ _ hf => ?_, hh⟩
    cases hf
    exact hr
  | _ =>
    obtain ⟨hi, hh⟩ := h.cons
    refine ⟨hi, ?_, hh⟩
    intro _ _ hf
    cases hf

theorem Items.Hosted.cons {i : Item} {rest : List Item} (h : Items.Hosted program p (i :: rest)) :
    Item.Hosted program p i ∧ Items.Hosted program (p + i.room) rest := by
  unfold Items.Hosted at h
  rw [Items.code, Items.reads] at h
  exact h.append i.room (i.code_length p) i.reads_length

theorem Item.Hosted.element {tag : String} {key : Option String} {features : List Feature}
    {children : List Item} (h : Item.Hosted program p (.element tag key features children)) :
    program.instrs[p.pc]? = some (.createElement tag key) ∧
      Features.Hosted program (p + .one) features ∧
      Items.Hosted program (p + (.one + Features.room features)) children ∧
      program.instrs[(p + (.one + Features.room features) + Items.room children).pc]? =
        some .appendChild := by
  unfold Item.Hosted at h
  rw [Item.code, Item.reads] at h
  obtain ⟨hi, h⟩ := h.cons
  obtain ⟨hf, h⟩ := h.append _ (Features.code_length _ _) (Features.reads_length _)
  rw [Place.add_assoc, ← List.append_nil (Items.reads children)] at h
  obtain ⟨hc, h⟩ := h.append _ (Items.code_length _ _) (Items.reads_length _)
  exact ⟨hi, hf, hc, h.cons.1⟩

theorem Block.Hosted.emit {e : Expr} {mode : EmitMode}
    (h : Block.Hosted program p (.emit e mode)) :
    program.instrs[p.pc]? = some (.emit e mode p.action) ∧
      program.reads? p.action = some e.reads := by
  unfold Block.Hosted at h
  rw [Block.code, Block.reads] at h
  obtain ⟨hi, hr, -⟩ := h.consActing
  exact ⟨hi, hr⟩

theorem Block.Hosted.chain {clauses : Clauses} (h : Block.Hosted program p (.chain clauses)) :
    program.instrs[p.pc]? = some (.openConditional p.action ((Block.chain clauses).stop p)) ∧
      program.reads? p.action = some (testReads clauses.tests) ∧
      Clauses.Hosted program (p + .acting) ((Block.chain clauses).stop p) clauses ∧
      program.instrs[(Block.chain clauses).stop p]? = some .closeConditional := by
  unfold Block.Hosted at h
  rw [Block.code, Block.reads] at h
  obtain ⟨hi, hr, h⟩ := h.consActing
  rw [← List.append_nil clauses.bodyReads] at h
  obtain ⟨hc, h⟩ := h.append _ (Clauses.code_length _ _ _) (Clauses.bodyReads_length _)
  rw [Place.add_assoc] at h
  exact ⟨hi, hr, hc, h.cons.1⟩

theorem Block.Hosted.loop {binding : LoopBinding} {collection : Expr} {body : List Item}
    (h : Block.Hosted program p (.loop binding collection body)) :
    let stop := (Block.loop binding collection body).stop p
    program.instrs[p.pc]? = some (.openLoop p.action binding collection stop) ∧
      program.reads? p.action = some collection.reads ∧
      program.instrs[p.pc + 1]? = some (.iterate stop) ∧
      Items.Hosted program (p + (.acting + .one)) body ∧
      program.instrs[(p + (.acting + .one) + Items.room body).pc]? = some (.jump (p.pc + 1)) ∧
      program.instrs[stop]? = some .closeLoop := by
  unfold Block.Hosted at h
  rw [Block.code, Block.reads] at h
  obtain ⟨hi, hr, h⟩ := h.consActing
  obtain ⟨hs, h⟩ := h.cons
  rw [Place.add_assoc, ← List.append_nil (Items.reads body)] at h
  obtain ⟨hb, h⟩ := h.append _ (Items.code_length _ _) (Items.reads_length _)
  obtain ⟨hj, h⟩ := h.cons
  refine ⟨hi, hr, hs, hb, hj, ?_⟩
  rw [← h.cons.1]
  simp only [Block.stop, Place.add_pc, Place.acting_pc, Place.one_pc]
  congr 1
  omega

/-- Whether an instruction starts an action with a block. -/
def Instr.opensBlock : Instr → Bool
  | emit .. | openConditional .. | openLoop .. => true
  | _ => false

theorem Block.Hosted.opensBlock {b : Block} (h : b.Hosted program p) :
    ∃ instr, program.instrs[p.pc]? = some instr ∧ instr.opensBlock = true := by
  cases b with
  | emit e mode => exact ⟨_, h.emit.1, rfl⟩
  | chain clauses => exact ⟨_, h.chain.1, rfl⟩
  | loop binding collection body => exact ⟨_, h.loop.1, rfl⟩

theorem Block.Hosted.room_le {b : Block} (h : b.Hosted program p) :
    b.room.pc ≤ program.instrs.size := by
  rw [← b.code_length p, ← Array.length_toList]
  exact h.code.length_le

theorem Clauses.Hosted.clause {test : Expr} {negate : Bool} {body : List Item} {rest : Clauses}
    {stop : Nat} (h : Clauses.Hosted program p stop (.clause test negate body rest)) :
    program.instrs[p.pc]? = some (.branch test negate (Clauses.next p body rest).pc) ∧
      Items.Hosted program (p + .one) body ∧
      (rest.isDone = false →
        program.instrs[(p + .one + Items.room body).pc]? = some (.jump stop)) ∧
      Clauses.Hosted program (Clauses.next p body rest) stop rest := by
  unfold Clauses.Hosted at h
  rw [Clauses.code, Clauses.bodyReads] at h
  obtain ⟨hi, h⟩ := h.cons
  obtain ⟨hb, h⟩ := h.append _ (Items.code_length _ _) (Items.reads_length _)
  have hr : ([] : List Reads).length = rest.exitRoom.action := rest.exitRoom_action.symm
  rw [← List.nil_append rest.bodyReads] at h
  obtain ⟨he, h⟩ := h.append _ (Clauses.exit_length _ _) hr
  refine ⟨hi, hb, fun hd => ?_, ?_⟩
  · unfold Clauses.exit at he
    rw [hd] at he
    exact he.cons.1
  · unfold Clauses.Hosted
    rw [show Clauses.next p body rest = p + .one + Items.room body + rest.exitRoom by
      rw [Clauses.next, Place.add_assoc, Place.add_assoc]]
    rw [show Clauses.next p body rest = p + .one + Items.room body + rest.exitRoom by
      rw [Clauses.next, Place.add_assoc, Place.add_assoc]] at h
    exact h

/-! ## Whole programs -/

/-- A program is laid out as an outline: the code is that of the outline, and the actions read what
those of the outline read. -/
structure Program.LaidOut (program : Program) (items : List Item) : Prop where
  instrs : program.instrs.toList = Items.code .start items
  reads : program.actions.toList.map Action.reads = Items.reads items

namespace Program.LaidOut

variable {program : Program} {items : List Item}

theorem hosted (h : program.LaidOut items) : Items.Hosted program .start items :=
  ⟨h.instrs ▸ Sits.refl _, h.reads ▸ Sits.refl _⟩

theorem size (h : program.LaidOut items) : program.instrs.size = (Items.room items).pc := by
  rw [← Array.length_toList, h.instrs, Items.code_length]

end Program.LaidOut

end LiveTemplate
