/-
What a program has to keep to so that it can be run: every block ends at its own end, jumps stay in
the block they stand in, loops begin with their step, the elements begun in a block or a clause end
there, and every action belongs to one instruction. All of this is said of the instructions one
after the other, without their outline; code laid out as an outline keeps to it.
-/
import LiveTemplate.Proofs.Program.Soundness

namespace LiveTemplate

/-! ## Instructions -/

namespace Instr

/-- Where the block that an instruction opens ends. -/
def stop? : Instr → Option Nat
  | openConditional _ stop | openLoop _ _ _ stop => some stop
  | _ => none

/-- Where an instruction may lead other than to the next one. -/
def target? : Instr → Option Nat
  | branch _ _ target | jump target | iterate target => some target
  | _ => none

/-- The action that an instruction starts. -/
def action? : Instr → Option ActionId
  | setAttributeExpr _ _ action | emit _ _ action | openConditional action _
  | openLoop action _ _ _ => some action
  | _ => none

/-- Whether an instruction ends what another one opens. -/
def closes : Instr → Instr → Bool
  | closeConditional, openConditional .. | closeLoop, openLoop .. => true
  | _, _ => false

end Instr

/-- How many are open after one of so many was closed; nothing if none was open. -/
def oneLess : Nat → Option Nat
  | 0 => none
  | n + 1 => some n

/-- How many blocks are open after an instruction; nothing if it closes one where none is open. -/
def blockDepth (n : Nat) : Instr → Option Nat
  | .openConditional .. | .openLoop .. => some (n + 1)
  | .closeConditional | .closeLoop => oneLess n
  | _ => some n

/-- How many elements are open after an instruction; nothing if it needs one and none is open. -/
def elementDepth (n : Nat) : Instr → Option Nat
  | .createElement .. => some (n + 1)
  | .appendChild => oneLess n
  | .setAttribute .. | .setFlag _ | .setAttributeExpr .. | .addListener .. =>
    if n = 0 then none else some n
  | _ => some n

/-- Code that opens as much as it closes, and never closes what was opened before it. -/
def Balanced (depth : Nat → Instr → Option Nat) (code : List Instr) : Prop :=
  code.foldlM depth 0 = some 0

namespace Program

variable (program : Program)

/-- The instructions from one position to before another one. -/
def slice (i j : Nat) : List Instr := (program.instrs.toList.drop i).take (j - i)

/-- The block that is opened at a position ends at another one: an instruction that closes this
kind of block, where all blocks opened in between are closed. -/
structure EndsAt (opened stop : Nat) : Prop where
  lt : opened < stop
  closes : ∃ instr closing, program.instrs[opened]? = some instr ∧ instr.stop? = some stop ∧
    program.instrs[stop]? = some closing ∧ closing.closes instr = true
  balanced : Balanced blockDepth (program.slice (opened + 1) stop)

/-- A position is in a block and in no block inside of it. -/
structure Directly (opened stop pc : Nat) : Prop where
  block : program.EndsAt opened stop
  after : opened < pc
  before : pc < stop
  balanced : Balanced blockDepth (program.slice (opened + 1) pc)

/-- A conditional leads from a test to the clause after it; both the clause and what follows it
end the elements they begin. -/
structure BranchFits (pc target : Nat) : Prop where
  inside : ∃ opened stop, program.Directly opened stop pc ∧ pc < target ∧ target ≤ stop ∧
    Balanced elementDepth (program.slice target stop)
  clause : Balanced elementDepth (program.slice (pc + 1) target)

/-- An instruction fits to the ones around it. -/
def Fits (pc : Nat) : Instr → Prop
  | .openConditional _ stop =>
    program.EndsAt pc stop ∧ Balanced elementDepth (program.slice (pc + 1) stop)
  | .openLoop _ _ _ stop =>
    program.EndsAt pc stop ∧ Balanced elementDepth (program.slice (pc + 1) stop) ∧
      program.instrs[pc + 1]? = some (.iterate stop)
  | .branch _ _ target =>
    program.BranchFits pc target
  | .jump target =>
    ∃ opened stop, program.Directly opened stop pc ∧ opened < target ∧ target ≤ stop
  | .iterate target =>
    ∃ opened, pc = opened + 1 ∧ program.Directly opened target pc ∧
      ∃ action binding collection,
        program.instrs[opened]? = some (.openLoop action binding collection target)
  | _ => True

end Program

/-! ## Balance -/

/-- A count that what opens and closes a part of an outline leaves as it was. -/
structure Pairs (depth : Nat → Instr → Option Nat) : Prop where
  text (n : Nat) (s : String) : depth n (.createText s) = some n
  element (n : Nat) (tag : String) (key : Option String) : ∃ m,
    depth n (.createElement tag key) = some m ∧
    (∀ (p : Place) (f : Feature), depth m (f.instr p) = some m) ∧ depth m .appendChild = some n
  emit (n : Nat) (e : Expr) (mode : EmitMode) (action : ActionId) :
    depth n (.emit e mode action) = some n
  conditional (n : Nat) (action : ActionId) (stop : Nat) : ∃ m,
    depth n (.openConditional action stop) = some m ∧ depth m .closeConditional = some n
  branch (n : Nat) (e : Expr) (negate : Bool) (target : Nat) :
    depth n (.branch e negate target) = some n
  jump (n target : Nat) : depth n (.jump target) = some n
  loop (n : Nat) (action : ActionId) (binding : LoopBinding) (e : Expr) (stop : Nat) : ∃ m,
    depth n (.openLoop action binding e stop) = some m ∧ depth m .closeLoop = some n
  iterate (n target : Nat) : depth n (.iterate target) = some n

theorem blockDepth_pairs : Pairs blockDepth where
  text _ _ := rfl
  element n _ _ := ⟨n, rfl, fun _ f => by cases f <;> rfl, rfl⟩
  emit _ _ _ _ := rfl
  conditional n _ _ := ⟨n + 1, rfl, rfl⟩
  branch _ _ _ _ := rfl
  jump _ _ := rfl
  loop n _ _ _ _ := ⟨n + 1, rfl, rfl⟩
  iterate _ _ := rfl

theorem elementDepth_pairs : Pairs elementDepth where
  text _ _ := rfl
  element n _ _ := ⟨n + 1, rfl, fun _ f => by cases f <;> rfl, rfl⟩
  emit _ _ _ _ := rfl
  conditional n _ _ := ⟨n, rfl, rfl⟩
  branch _ _ _ _ := rfl
  jump _ _ := rfl
  loop n _ _ _ _ := ⟨n, rfl, rfl⟩
  iterate _ _ := rfl

section

variable {depth : Nat → Instr → Option Nat} {n m : Nat} {a : List Instr} {instr : Instr}

theorem foldlM_step (h : depth n instr = some m) (code : List Instr) :
    (instr :: code).foldlM depth n = code.foldlM depth m := by
  rw [List.foldlM_cons, h]
  rfl

theorem foldlM_walk (h : a.foldlM depth n = some m) (code : List Instr) :
    (a ++ code).foldlM depth n = code.foldlM depth m := by
  rw [List.foldlM_append, h]
  rfl

theorem Balanced.append {b : List Instr} (ha : Balanced depth a) (hb : Balanced depth b) :
    Balanced depth (a ++ b) :=
  (foldlM_walk ha b).trans hb

theorem Pairs.exit (pairs : Pairs depth) (n stop : Nat) (following : Clauses) :
    (following.exit stop).foldlM depth n = some n := by
  unfold Clauses.exit
  split
  · rfl
  · exact foldlM_step (pairs.jump n stop) []

mutual

/-- The code of a part leaves the count as it was. -/
theorem Pairs.item (pairs : Pairs depth) (n : Nat) : ∀ (i : Item) (p : Place), (i.code p).foldlM depth n = some n
  | .text s, _ => foldlM_step (pairs.text n s) []
  | .element tag key features children, p => by
    obtain ⟨m, ho, hf, hc⟩ := pairs.element n tag key
    have features_level : ∀ (features : List Feature) (p : Place),
        (Features.code p features).foldlM depth m = some m := by
      intro features
      induction features with
      | nil => exact fun _ => rfl
      | cons f rest ih => exact fun p => (foldlM_step (hf p f) _).trans (ih _)
    rw [Item.code, foldlM_step ho, foldlM_walk (features_level features _),
      foldlM_walk (pairs.items m children _)]
    exact foldlM_step hc []
  | .block b, p => pairs.block n b p

theorem Pairs.items (pairs : Pairs depth) (n : Nat) : ∀ (items : List Item) (p : Place),
    (Items.code p items).foldlM depth n = some n
  | [], _ => rfl
  | i :: rest, p => by
    rw [Items.code, foldlM_walk (pairs.item n i p)]
    exact pairs.items n rest _

theorem Pairs.block (pairs : Pairs depth) (n : Nat) : ∀ (b : Block) (p : Place), (b.code p).foldlM depth n = some n
  | .emit e mode, p => foldlM_step (pairs.emit n e mode p.action) []
  | .chain clauses, p => by
    obtain ⟨m, ho, hc⟩ := pairs.conditional n p.action ((Block.chain clauses).stop p)
    rw [Block.code, foldlM_step ho, foldlM_walk (pairs.clauses m clauses _ _)]
    exact foldlM_step hc []
  | .loop binding collection body, p => by
    obtain ⟨m, ho, hc⟩ := pairs.loop n p.action binding collection
      ((Block.loop binding collection body).stop p)
    rw [Block.code, foldlM_step ho, foldlM_step (pairs.iterate m _),
      foldlM_walk (pairs.items m body _), foldlM_step (pairs.jump m _)]
    exact foldlM_step hc []

theorem Pairs.clauses (pairs : Pairs depth) (n : Nat) : ∀ (clauses : Clauses) (p : Place) (stop : Nat),
    (clauses.code p stop).foldlM depth n = some n
  | .done, _, _ => rfl
  | .otherwise body, p, _ => pairs.items n body p
  | .clause test negate body rest, p, stop => by
    rw [Clauses.code, foldlM_step (pairs.branch n test negate _),
      foldlM_walk (pairs.items n body _), foldlM_walk (pairs.exit n stop rest)]
    exact pairs.clauses n rest _ stop

end

end

/-! ## Slices -/

namespace Program

variable {program : Program} {p : Place} {code : List Instr}

theorem slice_of_sits {i : Nat} (h : Sits program.instrs.toList i code) :
    program.slice i (i + code.length) = code := by
  refine List.ext_getElem? fun j => ?_
  rw [slice, Nat.add_sub_cancel_left, List.getElem?_take]
  split
  · next hj => rw [List.getElem?_drop, h j hj]
  · next hj => rw [List.getElem?_eq_none (Nat.not_lt.1 hj)]

theorem slice_self (i : Nat) : program.slice i i = [] := by
  rw [slice, Nat.sub_self, List.take_zero]

/-- The instruction at a position and code right after it. -/
theorem slice_cons {i j : Nat} {instr : Instr} (hi : program.instrs[i]? = some instr)
    (h : Sits program.instrs.toList (i + 1) code) (hj : j = i + 1 + code.length) :
    program.slice i j = instr :: code := by
  have hs : Sits program.instrs.toList i (instr :: code) :=
    Sits.cons.2 ⟨by rw [Array.getElem?_toList]; exact hi, h⟩
  rw [hj, show i + 1 + code.length = i + (instr :: code).length by
    rw [List.length_cons]
    omega]
  exact slice_of_sits hs

theorem slice_append {i j k : Nat} (hij : i ≤ j) (hjk : j ≤ k) :
    program.slice i j ++ program.slice j k = program.slice i k := by
  have hk : k - i = (j - i) + (k - j) := by omega
  have hj : program.instrs.toList.drop j = (program.instrs.toList.drop i).drop (j - i) := by
    rw [List.drop_drop]
    congr 1
    omega
  rw [slice, slice, slice, hk, List.take_add, hj]

/-- The instructions from one position to before another one fit. -/
def FitsOn (program : Program) (i j : Nat) : Prop :=
  ∀ pc instr, i ≤ pc → pc < j → program.instrs[pc]? = some instr → program.Fits pc instr

theorem FitsOn.append {i j k : Nat} (h : program.FitsOn i j) (h' : program.FitsOn j k) :
    program.FitsOn i k := by
  intro pc instr hi hk hpc
  by_cases hj : pc < j
  · exact h pc instr hi hj hpc
  · exact h' pc instr (Nat.not_lt.1 hj) hk hpc

theorem fitsOn_one {i : Nat} {instr : Instr} (hi : program.instrs[i]? = some instr)
    (h : program.Fits i instr) : program.FitsOn i (i + 1) := by
  intro pc instr' hle hlt hpc
  obtain rfl : pc = i := by omega
  rw [hi] at hpc
  cases hpc
  exact h

theorem fitsOn_features : ∀ (features : List Feature) (p : Place),
    Features.Hosted program p features → program.FitsOn p.pc (p + Features.room features).pc
  | [], p, _ => fun pc _ hi hj => absurd hj (Nat.not_lt.2 hi)
  | f :: rest, p, h => by
    obtain ⟨hi, -, hr⟩ := h.cons
    have hf : f.room.pc = 1 := by cases f <;> rfl
    have others := fitsOn_features rest (p + f.room) hr
    rw [Place.add_assoc, Place.add_pc, hf] at others
    exact (fitsOn_one hi (by cases f <;> trivial)).append others

/-- The block that a program hosts at a place ends where the block does. -/
theorem endsAt_chain {clauses : Clauses} (h : Block.Hosted program p (.chain clauses)) :
    program.EndsAt p.pc ((Block.chain clauses).stop p) ∧
      program.slice (p.pc + 1) ((Block.chain clauses).stop p) =
        clauses.code (p + .acting) ((Block.chain clauses).stop p) := by
  obtain ⟨hi, -, hc, he⟩ := h.chain
  have hs : (Block.chain clauses).stop p = (p + .acting).pc + (clauses.code (p + .acting)
      ((Block.chain clauses).stop p)).length := by
    rw [Clauses.code_length, Block.stop]
    simp only [Place.add_pc]
    omega
  have slice := slice_of_sits hc.code
  rw [← hs] at slice
  refine ⟨⟨?_, ⟨_, _, hi, rfl, he, rfl⟩, ?_⟩, slice⟩
  · simp only [Block.stop, Place.add_pc, Place.acting_pc]
    omega
  · show Balanced blockDepth (program.slice (p + .acting).pc _)
    rw [slice]
    exact blockDepth_pairs.clauses 0 clauses _ _

theorem endsAt_loop {binding : LoopBinding} {collection : Expr} {body : List Item}
    (h : Block.Hosted program p (.loop binding collection body)) :
    program.EndsAt p.pc ((Block.loop binding collection body).stop p) ∧
      program.slice (p.pc + 1) ((Block.loop binding collection body).stop p) =
        .iterate ((Block.loop binding collection body).stop p)
          :: (Items.code (p + (.acting + .one)) body ++ [.jump (p.pc + 1)]) := by
  obtain ⟨hi, -, hn, hb, hj, he⟩ := h.loop
  have code := h.code
  rw [Block.code, Sits.cons, show ∀ a : List Instr, a ++ [.jump (p.pc + 1), .closeLoop] =
    (a ++ [.jump (p.pc + 1)]) ++ [.closeLoop] from fun a => by simp, ← List.cons_append,
    Sits.append] at code
  have slice := slice_of_sits code.2.1
  have hs : p.pc + 1 + (Instr.iterate ((Block.loop binding collection body).stop p)
      :: (Items.code (p + (.acting + .one)) body ++ [.jump (p.pc + 1)])).length =
      (Block.loop binding collection body).stop p := by
    simp [Items.code_length, Block.stop]
    omega
  rw [hs] at slice
  refine ⟨⟨?_, ⟨_, _, hi, rfl, he, rfl⟩, ?_⟩, slice⟩
  · simp only [Block.stop, Place.add_pc, Place.acting_pc]
    omega
  · rw [slice]
    show (_ :: _).foldlM blockDepth 0 = some 0
    rw [foldlM_step (blockDepth_pairs.iterate 0 _), foldlM_walk (blockDepth_pairs.items 0 body _)]
    rfl

mutual

/-- The code of a part fits wherever it stands. -/
theorem fitsOn_item : ∀ (i : Item) (p : Place), i.Hosted program p →
    program.FitsOn p.pc (p + i.room).pc
  | .text s, p, h => by
    unfold Item.Hosted at h
    rw [Item.code] at h
    exact fitsOn_one h.cons.1 trivial
  | .element tag key features children, p, h => by
    obtain ⟨hi, hf, hc, ha⟩ := h.element
    have hroom : (p + (Item.element tag key features children).room).pc =
        (p + (.one + Features.room features) + Items.room children).pc + 1 := by
      simp only [Item.room, Place.add_pc, Place.one_pc]
      omega
    have featured := fitsOn_features features (p + .one) hf
    rw [Place.add_assoc] at featured
    rw [hroom]
    exact ((fitsOn_one hi trivial).append featured).append
      ((fitsOn_items children _ hc).append (fitsOn_one ha trivial))
  | .block b, p, h => fitsOn_block b p h

theorem fitsOn_items : ∀ (items : List Item) (p : Place), Items.Hosted program p items →
    program.FitsOn p.pc (p + Items.room items).pc
  | [], p, _ => fun pc _ hi hj => absurd hj (Nat.not_lt.2 hi)
  | i :: rest, p, h => by
    obtain ⟨hi, hr⟩ := h.cons
    have others := fitsOn_items rest (p + i.room) hr
    rw [Place.add_assoc] at others
    exact (fitsOn_item i p hi).append others

theorem fitsOn_block : ∀ (b : Block) (p : Place), b.Hosted program p →
    program.FitsOn p.pc (p + b.room).pc
  | .emit e mode, p, h => fitsOn_one h.emit.1 trivial
  | .chain clauses, p, h => by
    obtain ⟨hi, -, hc, he⟩ := h.chain
    obtain ⟨ends, slice⟩ := endsAt_chain h
    rw [← (Block.chain clauses).stop_succ p]
    refine (fitsOn_one hi ⟨ends, ?_⟩).append (FitsOn.append ?_ (fitsOn_one he trivial))
    · rw [slice]
      exact elementDepth_pairs.clauses 0 clauses _ _
    · refine fitsOn_clauses clauses (p + .acting) _ p.pc hc ?_ ends (Nat.lt_succ_self _) ?_
      · rw [Block.stop, Place.add_assoc]
      · show Balanced blockDepth (program.slice (p.pc + 1) (p.pc + 1))
        rw [slice_self]
        rfl
  | .loop binding collection body, p, h => by
    obtain ⟨hi, -, hn, hb, hj, he⟩ := h.loop
    obtain ⟨ends, slice⟩ := endsAt_loop h
    rw [← (Block.loop binding collection body).stop_succ p]
    have hs : (Block.loop binding collection body).stop p =
        (p + (.acting + .one) + Items.room body).pc + 1 := by
      simp only [Block.stop, Place.add_pc, Place.acting_pc, Place.one_pc]
      omega
    have first : program.Fits (p.pc + 1) (.iterate ((Block.loop binding collection body).stop p)) := by
      refine ⟨p.pc, rfl, ⟨ends, Nat.lt_succ_self _, ?_, ?_⟩, _, _, _, hi⟩
      · simp only [hs, Place.add_pc, Place.acting_pc, Place.one_pc]
        omega
      · rw [slice_self]
        rfl
    have last : program.Fits (p + (.acting + .one) + Items.room body).pc (.jump (p.pc + 1)) := by
      refine ⟨p.pc, _, ⟨ends, ?_, by rw [hs]; exact Nat.lt_succ_self _, ?_⟩, Nat.lt_succ_self _, ?_⟩
      · simp only [Place.add_pc, Place.acting_pc, Place.one_pc]
        omega
      · rw [slice_cons hn hb.code (by
          simp only [Items.code_length, Place.add_pc, Place.acting_pc, Place.one_pc])]
        exact (foldlM_step (blockDepth_pairs.iterate 0 _) _).trans (blockDepth_pairs.items 0 body _)
      · simp only [hs, Place.add_pc, Place.acting_pc, Place.one_pc]
        omega
    refine (fitsOn_one hi ⟨ends, ?_, hn⟩).append ((fitsOn_one hn first).append
      (FitsOn.append (fitsOn_items body _ hb) ((fitsOn_one hj last).append ?_)))
    · rw [slice]
      show (_ :: _).foldlM elementDepth 0 = some 0
      rw [foldlM_step (elementDepth_pairs.iterate 0 _),
        foldlM_walk (elementDepth_pairs.items 0 body _)]
      rfl
    · rw [← hs]
      exact fitsOn_one he trivial

/-- The code of the clauses of a conditional fits if it fills the block up to its end. -/
theorem fitsOn_clauses : ∀ (clauses : Clauses) (p : Place) (stop opened : Nat),
    clauses.Hosted program p stop → stop = (p + clauses.room).pc → program.EndsAt opened stop →
    opened < p.pc → Balanced blockDepth (program.slice (opened + 1) p.pc) →
    program.FitsOn p.pc stop
  | .done, p, stop, opened, _, hs, _, _, _ => fun pc _ hi hj => absurd hj (by rw [hs]; exact Nat.not_lt.2 hi)
  | .otherwise body, p, stop, opened, h, hs, _, _, _ => by
    rw [hs]
    exact fitsOn_items body p h
  | .clause test negate body rest, p, stop, opened, h, hs, ends, ho, level => by
    obtain ⟨hi, hb, hx, hr⟩ := h.clause
    have hnext : (Clauses.next p body rest).pc =
        p.pc + 1 + (Items.room body).pc + rest.exitRoom.pc := by
      simp only [Clauses.next, Place.add_pc, Place.one_pc]
      omega
    have hs' : stop = (Clauses.next p body rest + rest.room).pc := by
      simp only [hs, Clauses.room, Clauses.next, Place.add_pc, Place.one_pc]
      omega
    have hrest : stop = (Clauses.next p body rest).pc
        + (rest.code (Clauses.next p body rest) stop).length := by
      rw [Clauses.code_length, hs', Place.add_pc]
    -- What stands between the test and the next clause.
    have code := h.code
    rw [Clauses.code, Sits.cons, ← List.append_assoc, Sits.append] at code
    have hlen : (Items.code (p + .one) body ++ rest.exit stop).length =
        (Items.room body).pc + rest.exitRoom.pc := by
      rw [List.length_append, Items.code_length, Clauses.exit_length]
    have between : program.slice (p.pc + 1) (Clauses.next p body rest).pc =
        Items.code (p + .one) body ++ rest.exit stop := by
      rw [← slice_of_sits code.2.1, hlen]
      congr 1
      omega
    have tested : program.slice p.pc (Clauses.next p body rest).pc =
        .branch test negate (Clauses.next p body rest).pc
          :: (Items.code (p + .one) body ++ rest.exit stop) :=
      slice_cons hi code.2.1 (by rw [hlen]; omega)
    have first : program.Fits p.pc (.branch test negate (Clauses.next p body rest).pc) := by
      refine ⟨⟨opened, stop, ⟨ends, ho, by omega, level⟩, by omega, by omega, ?_⟩, ?_⟩
      · rw [hrest, slice_of_sits hr.code]
        exact elementDepth_pairs.clauses 0 rest _ _
      · rw [between]
        exact Balanced.append (elementDepth_pairs.items 0 body _) (elementDepth_pairs.exit 0 stop rest)
    have others : program.FitsOn (Clauses.next p body rest).pc stop := by
      refine fitsOn_clauses rest (Clauses.next p body rest) stop opened hr hs' ends (by omega) ?_
      rw [← slice_append (Nat.succ_le_of_lt ho) (by omega : p.pc ≤ (Clauses.next p body rest).pc),
        tested]
      refine level.append ((foldlM_step (blockDepth_pairs.branch 0 _ _ _) _).trans ?_)
      exact Balanced.append (blockDepth_pairs.items 0 body _) (blockDepth_pairs.exit 0 stop rest)
    have inside := fitsOn_items body (p + .one) hb
    refine (fitsOn_one hi first).append (inside.append (FitsOn.append ?_ others))
    have hend : (p + .one + Items.room body).pc = p.pc + 1 + (Items.room body).pc := rfl
    by_cases hd : rest.isDone = true
    · have hroom : rest.exitRoom.pc = 0 := by rw [Clauses.exitRoom, if_pos hd]; rfl
      exact fun pc _ hle hlt => absurd hle (by omega)
    · have hroom : rest.exitRoom.pc = 1 := by rw [Clauses.exitRoom, if_neg hd]; rfl
      have hexit := hx (by simpa using hd)
      rw [show (Clauses.next p body rest).pc = (p + .one + Items.room body).pc + 1 by omega]
      refine fitsOn_one hexit ⟨opened, stop, ⟨ends, by omega, by omega, ?_⟩, by omega, Nat.le_refl _⟩
      rw [← slice_append (Nat.succ_le_of_lt ho) (by omega : p.pc ≤ (p + .one + Items.room body).pc),
        slice_cons hi hb.code (by rw [Items.code_length, hend])]
      exact level.append ((foldlM_step (blockDepth_pairs.branch 0 _ _ _) _).trans
        (blockDepth_pairs.items 0 body _))

end

end Program

/-! ## Actions -/

/-- The actions of some code at a place are those that its room has, each started once. -/
def Numbered (p : Place) (code : List Instr) (room : Place) : Prop :=
  code.filterMap Instr.action? = List.range' p.action room.action

namespace Numbered

variable {p room room' : Place} {a b : List Instr} {instr : Instr}

theorem nil : Numbered p [] .start := rfl

theorem append (ha : Numbered p a room) (hb : Numbered (p + room) b room') :
    Numbered p (a ++ b) (room + room') := by
  unfold Numbered at *
  rw [List.filterMap_append, ha, hb, Place.add_action, Place.add_action, List.range'_append_1]

theorem cons (h : instr.action? = none) (hb : Numbered (p + .one) b room') :
    Numbered p (instr :: b) (.one + room') :=
  append (a := [instr]) (by simp [Numbered, h]) hb

theorem consActing (h : instr.action? = some p.action) (hb : Numbered (p + .acting) b room') :
    Numbered p (instr :: b) (.acting + room') :=
  append (a := [instr]) (by simp [Numbered, h]) hb

end Numbered

theorem Features.numbered : ∀ (features : List Feature) (p : Place),
    Numbered p (Features.code p features) (Features.room features)
  | [], _ => .nil
  | .dynamic _ _ :: rest, _ => .consActing rfl (Features.numbered rest _)
  | .plain _ _ :: rest, _ | .flag _ :: rest, _ | .listener _ _ :: rest, _ =>
    .cons rfl (Features.numbered rest _)

theorem Clauses.exit_numbered (p : Place) (stop : Nat) (following : Clauses) :
    Numbered p (following.exit stop) following.exitRoom := by
  unfold Clauses.exit Clauses.exitRoom
  split <;> rfl

mutual

/-- The actions of a part are numbered in the order of their instructions. -/
theorem Item.numbered : ∀ (i : Item) (p : Place), Numbered p (i.code p) i.room
  | .text _, _ => rfl
  | .element tag key features children, p => by
    have featured := Features.numbered features (p + .one)
    have filled := Items.numbered children (p + .one + Features.room features)
    rw [Place.add_assoc] at filled
    refine .cons rfl (featured.append ?_)
    rw [Place.add_assoc]
    exact filled.append rfl
  | .block b, p => b.numbered p

theorem Items.numbered : ∀ (items : List Item) (p : Place),
    Numbered p (Items.code p items) (Items.room items)
  | [], _ => .nil
  | i :: rest, p => (Item.numbered i p).append (Items.numbered rest _)

theorem Block.numbered : ∀ (b : Block) (p : Place), Numbered p (b.code p) b.room
  | .emit .., _ => rfl
  | .chain clauses, p => .consActing rfl ((clauses.numbered _ _).append rfl)
  | .loop binding collection body, p => by
    refine .consActing rfl (.cons rfl ?_)
    rw [Place.add_assoc]
    exact (Items.numbered body _).append rfl

theorem Clauses.numbered : ∀ (clauses : Clauses) (p : Place) (stop : Nat),
    Numbered p (clauses.code p stop) clauses.room
  | .done, _, _ => .nil
  | .otherwise body, p, _ => Items.numbered body p
  | .clause test negate body rest, p, stop => by
    refine .cons rfl ((Items.numbered body _).append ((rest.exit_numbered _ stop).append ?_))
    rw [Place.add_assoc, Place.add_assoc]
    exact rest.numbered _ stop

end

/-! ## Well-formed programs -/

/-- A program can be run: no target is open, every instruction fits to those around it, the
elements begun by it end, every action is started by one instruction, and the instructions evaluate
resolved expressions only. -/
structure Program.WellFormed (program : Program) : Prop where
  known : ∀ instr ∈ program.instrs.toList, ∀ n, instr.stop? = some n ∨ instr.target? = some n →
    n ≠ Builder.pendingTarget
  fits : ∀ pc instr, program.instrs[pc]? = some instr → program.Fits pc instr
  elements : Balanced elementDepth program.instrs.toList
  actions : program.instrs.toList.filterMap Instr.action? = List.range program.actions.size
  sound : ∀ instr ∈ program.instrs.toList, instr.Sound

theorem Program.Fits.known {program : Program} {pc n : Nat} {instr : Instr}
    (h : program.Fits pc instr) (hn : instr.stop? = some n ∨ instr.target? = some n) :
    n ≠ Builder.pendingTarget := by
  have positive {m : Nat} (hm : m < n) : n ≠ Builder.pendingTarget := Nat.ne_of_gt (Nat.zero_lt_of_lt hm)
  cases instr with
  | openConditional action stop =>
    rcases hn with hn | hn <;> cases hn
    exact positive h.1.lt
  | openLoop action binding collection stop =>
    rcases hn with hn | hn <;> cases hn
    exact positive h.1.lt
  | branch e negate target =>
    rcases hn with hn | hn <;> cases hn
    obtain ⟨opened, stop, -, hlt, -⟩ := h.inside
    exact positive hlt
  | jump target =>
    rcases hn with hn | hn <;> cases hn
    obtain ⟨opened, stop, -, hlt, -⟩ := h
    exact positive hlt
  | iterate target =>
    rcases hn with hn | hn <;> cases hn
    obtain ⟨opened, -, directly, -⟩ := h
    exact positive directly.block.lt
  | _ => rcases hn with hn | hn <;> cases hn

/-- Code that is laid out as an outline is well-formed. -/
theorem Program.LaidOut.wellFormed {program : Program} {items : List Item}
    (h : program.LaidOut items) (sound : ∀ instr ∈ program.instrs.toList, instr.Sound) :
    program.WellFormed := by
  have fits : ∀ pc instr, program.instrs[pc]? = some instr → program.Fits pc instr := by
    intro pc instr hi
    have hlt := (Array.getElem?_eq_some_iff.1 hi).1
    rw [h.size] at hlt
    exact fitsOn_items items .start h.hosted pc instr (Nat.zero_le _)
      (by rw [Place.start_add]; exact hlt) hi
  refine ⟨?_, fits, ?_, ?_, sound⟩
  · intro instr hm n hn
    obtain ⟨pc, hi⟩ := List.getElem?_of_mem hm
    rw [Array.getElem?_toList] at hi
    exact (fits pc instr hi).known hn
  · rw [h.instrs]
    exact elementDepth_pairs.items 0 items .start
  · have hsize : program.actions.size = (Items.room items).action := by
      rw [← Items.reads_length, ← h.reads, List.length_map, Array.length_toList]
    rw [h.instrs, hsize, List.range_eq_range']
    exact Items.numbered items .start

end LiveTemplate
