/-
Running the code of an outline gives what the outline means. Where a program hosts a part, a run
from its place comes to the place behind it with the nodes of the part appended and the context
that its meaning leaves; the code around it, the open elements and the kind of frame play no role.
From this, the action at the place of a block gives the nodes of the block, and a run of a whole
program gives the nodes of its outline.
-/
import LiveTemplate.Proofs.Computation
import LiveTemplate.Proofs.Program.Placement
import LiveTemplate.Proofs.Render.Meaning
import LiveTemplate.Render.Update

namespace LiveTemplate

/-! ## Outputs -/

namespace Output

/-- Appends nodes to the innermost open element. -/
def extend (out : Output) (nodes : List Node) : Output :=
  nodes.foldl (fun out n => out.push n) out

theorem extend_append (out : Output) (a b : List Node) :
    out.extend (a ++ b) = (out.extend a).extend b :=
  List.foldl_append

theorem extend_opened (e : Element) (nodes : List Node) (outer : List (Element × List Node)) :
    ∀ (children more : List Node),
      Output.extend ⟨nodes, (e, children) :: outer⟩ more = ⟨nodes, (e, children ++ more) :: outer⟩
  | children, [] => by rw [List.append_nil]; rfl
  | children, n :: more => by
    show Output.extend ⟨nodes, (e, children ++ [n]) :: outer⟩ more = _
    rw [extend_opened e nodes outer (children ++ [n]) more, List.append_assoc]
    rfl

theorem extend_closed : ∀ nodes more : List Node,
    Output.extend ⟨nodes, []⟩ more = ⟨nodes ++ more, []⟩
  | nodes, [] => by rw [List.append_nil]; rfl
  | nodes, n :: more => by
    show Output.extend ⟨nodes ++ [n], []⟩ more = _
    rw [extend_closed (nodes ++ [n]) more, List.append_assoc]
    rfl

theorem finish_extend_empty (nodes : List Node) : (Output.empty.extend nodes).finish = nodes := by
  rw [empty, extend_closed]
  exact List.append_nil _

/-- An element that is opened, gets its children and is closed is one more node. -/
theorem close?_extend_opened (out : Output) (e : Element) (children : List Node) :
    (Output.extend { out with stack := (e, []) :: out.stack } children).close? =
      some (out.extend [.element e children]) := by
  rw [extend_opened]
  rfl

end Output

theorem Executor.visit_run {α : Type} (pc : Nat) (scope : Scope) (work : Run α) :
    Executor.visit pc scope work = work := rfl

namespace Template

variable {t : Template} {frame : Frame} {scope : Scope} {stop pc : Nat} {out : Output} {c : Context}
  {fuel : Nat}

/-! ## Steps -/

theorem run_past (h : stop ≤ pc) : t.run fuel frame scope stop pc out c = (.ok out, c) := by
  cases fuel <;> rw [run, runIn, if_neg (Nat.not_lt.2 h)] <;> rfl

theorem run_block {instr : Instr} (h : pc < stop) (hi : t.program.instrs[pc]? = some instr)
    (hb : instr.opensBlock = true) :
    t.run (fuel + 1) frame scope stop pc out c = (do
      let (anchor, children) ← t.runBlock fuel pc scope
      t.run fuel frame scope stop (anchor.stop + 1) (out.push (.block anchor children)) : Run Output)
        c := by
  rw [run, runIn, if_pos h]
  simp only [hi, Run.need]
  cases instr <;> first | rfl | cases hb

theorem run_branch {action : ActionId} {e : Expr} {negate : Bool} {target : Nat} (h : pc < stop)
    (hi : t.program.instrs[pc]? = some (.branch e negate target)) :
    t.run (fuel + 1) (.conditional action) scope stop pc out c =
      match t.test scope e negate action c with
      | (some true, c) => t.run fuel (.conditional action) scope stop (pc + 1) out c
      | (some false, c) => t.run fuel (.conditional action) scope stop target out c
      | (none, c) => (.ok out, c) := by
  rw [run, runIn, if_pos h]
  simp only [hi, Run.need, pure_bind]
  rw [Executor.visit_run, stateful_lift_bind]
  rcases t.test scope e negate action c with ⟨_ | _ | _, _⟩ <;> rfl

theorem run_jump {target : Nat} (h : pc < stop)
    (hi : t.program.instrs[pc]? = some (.jump target)) :
    t.run (fuel + 1) frame scope stop pc out c =
      if frame = .loop target then (.ok out, c)
      else t.run fuel frame scope stop target out c := by
  rw [run, runIn, if_pos h]
  simp only [hi, Run.need]
  show (if frame = .loop target then (return out : Run Output)
    else t.run fuel frame scope stop target out) c = _
  split <;> rfl

/-- Whether an instruction neither jumps nor starts an action with a block. -/
def isPlain : Instr → Bool
  | .branch .. | .jump _ => false
  | instr => !instr.opensBlock

theorem run_plain {instr : Instr} (h : pc < stop) (hi : t.program.instrs[pc]? = some instr)
    (hp : isPlain instr = true) {out' : Output} {c' : Context}
    (hs : t.step scope pc instr out c = (.ok out', c')) :
    t.run (fuel + 1) frame scope stop pc out c = t.run fuel frame scope stop (pc + 1) out' c' := by
  rw [run, runIn, if_pos h]
  simp only [hi, Run.need]
  rw [← stateful_bind_ok hs (fun out => t.run fuel frame scope stop (pc + 1) out)]
  cases instr <;> first | rfl | cases hp

/-! ## Runs -/

/-- A run from one position comes to another one with another output and another context, as long
as it has more steps left than instructions before it. -/
def Leads (t : Template) (frame : Frame) (scope : Scope) (stop : Nat)
    (pc : Nat) (out : Output) (c : Context) (pc' : Nat) (out' : Output) (c' : Context) : Prop :=
  ∀ fuel, stop - pc < fuel → ∃ fuel', stop - pc' < fuel' ∧
    t.run fuel frame scope stop pc out c = t.run fuel' frame scope stop pc' out' c'

namespace Leads

variable {pc' pc'' : Nat} {out' out'' : Output} {c' c'' : Context}

theorem refl : t.Leads frame scope stop pc out c pc out c :=
  fun fuel h => ⟨fuel, h, rfl⟩

theorem trans (h : t.Leads frame scope stop pc out c pc' out' c')
    (h' : t.Leads frame scope stop pc' out' c' pc'' out'' c'') :
    t.Leads frame scope stop pc out c pc'' out'' c'' := by
  intro fuel hf
  obtain ⟨fuel', hf', e⟩ := h fuel hf
  obtain ⟨fuel'', hf'', e'⟩ := h' fuel' hf'
  exact ⟨fuel'', hf'', e.trans e'⟩

/-- One step that goes forward. -/
theorem of_step (hpc : pc < stop) (h : pc < pc')
    (step : ∀ fuel, stop - pc ≤ fuel → t.run (fuel + 1) frame scope stop pc out c =
      t.run fuel frame scope stop pc' out' c') :
    t.Leads frame scope stop pc out c pc' out' c' := by
  intro fuel hf
  obtain ⟨fuel, rfl⟩ : ∃ n, fuel = n + 1 := ⟨fuel - 1, by omega⟩
  exact ⟨fuel, by omega, step fuel (by omega)⟩

theorem plain {instr : Instr} (hpc : pc < stop) (hi : t.program.instrs[pc]? = some instr)
    (hp : isPlain instr = true) (hs : t.step scope pc instr out c = (.ok out', c')) :
    t.Leads frame scope stop pc out c (pc + 1) out' c' :=
  of_step hpc (Nat.lt_succ_self pc) fun _ _ => run_plain hpc hi hp hs

/-- A run that comes to the end gives the output it comes there with. -/
theorem run_eq (h : t.Leads frame scope stop pc out c stop out' c') (hf : stop - pc < fuel) :
    t.run fuel frame scope stop pc out c = (.ok out', c') := by
  obtain ⟨fuel', -, e⟩ := h fuel hf
  rw [e, run_past (Nat.le_refl stop)]

end Leads

/-! ## Elements -/

theorem step_feature (p : Place) (e : Element) (children : List Node)
    (outer : List (Element × List Node)) (nodes : List Node) : ∀ f : Feature,
    t.step scope p.pc (f.instr p) ⟨nodes, (e, children) :: outer⟩ c =
      (.ok ⟨nodes, ((f.render t p scope e c).1, children) :: outer⟩, (f.render t p scope e c).2)
  | .plain .. | .flag .. | .dynamic .. | .listener .. => rfl

theorem leads_features (frame : Frame) (scope : Scope) (stop : Nat) (children : List Node) (outer : List (Element × List Node))
    (nodes : List Node) : ∀ (features : List Feature) (p : Place) (e : Element) (c : Context),
    Features.Hosted t.program p features → (p + Features.room features).pc ≤ stop →
    t.Leads frame scope stop p.pc ⟨nodes, (e, children) :: outer⟩ c (p + Features.room features).pc
      ⟨nodes, ((Features.render t p scope e features c).1, children) :: outer⟩
      (Features.render t p scope e features c).2
  | [], _, _, _, _, _ => .refl
  | f :: rest, p, e, c, h, hs => by
    obtain ⟨hi, -, hr⟩ := h.cons
    have hf : f.room.pc = 1 := by cases f <;> rfl
    rw [Features.room, ← Place.add_assoc] at hs ⊢
    have hpc : p.pc < stop := by simp only [Place.add_pc] at hs; omega
    have others := leads_features frame scope stop children outer nodes rest (p + f.room)
      (f.render t p scope e c).1 (f.render t p scope e c).2 hr hs
    rw [Place.add_pc, hf] at others
    have plain : isPlain (f.instr p) = true := by cases f <;> rfl
    exact (Leads.plain hpc hi plain (step_feature p e children outer nodes f)).trans others

/-- An iteration of a loop ends at the jump back to its head. -/
theorem Leads.round {head after : Nat} {out' : Output} {c' : Context}
    (h : t.Leads (.loop head) scope stop pc out c after out' c') (inside : after < stop)
    (back : t.program.instrs[after]? = some (.jump head)) (hf : stop - pc < fuel) :
    t.run fuel (.loop head) scope stop pc out c = (.ok out', c') := by
  obtain ⟨fuel', hf', e⟩ := h fuel hf
  obtain ⟨fuel', rfl⟩ : ∃ n, fuel' = n + 1 := ⟨fuel' - 1, by omega⟩
  rw [e, run_jump inside back, if_pos rfl]

/-! ## Parts -/

/-- The nodes that the body of a loop gives for its items, one after the other. -/
theorem foldlM_rounds {round : Output → LoopItem → Run Output}
    {body : LoopItem → StateM Context (List Node)}
    (h : ∀ out item c, round out item c = (.ok (out.extend (body item c).1), (body item c).2)) :
    ∀ (items : List LoopItem) (out : Output) (c : Context),
      items.foldlM round out c =
        (.ok (out.extend (items.mapM body c).1.flatten), (items.mapM body c).2)
  | [], _, _ => rfl
  | item :: rest, out, c => by
    rw [List.foldlM_cons, stateful_bind_ok (h out item c), foldlM_rounds h rest, List.mapM_cons,
      ← Output.extend_append]
    rfl

mutual

/-- A run passes over the code of a part and appends its node. -/
theorem leads_item (frame : Frame) (scope : Scope) (stop : Nat) :
    ∀ (i : Item) (p : Place) (out : Output) (c : Context), i.Hosted t.program p →
      (p + i.room).pc ≤ stop →
      t.Leads frame scope stop p.pc out c (p + i.room).pc (out.extend [(i.render t p scope c).1])
        (i.render t p scope c).2
  | .text s, p, out, c, h, hs => by
    unfold Item.Hosted at h
    rw [Item.code] at h
    exact .plain hs h.cons.1 rfl rfl
  | .element tag key features children, p, out, c, h, hs => by
    -- the element stays on the stack while its features and its children lead on
    obtain ⟨hi, hf, hc, ha⟩ := h.element
    have hroom : (p + (Item.element tag key features children).room).pc =
        (p + (.one + Features.room features) + Items.room children).pc + 1 := by
      simp only [Item.room, Place.add_pc, Place.one_pc]
      omega
    rw [hroom] at hs ⊢
    simp only [Place.add_pc, Place.one_pc] at hs
    have opened : t.Leads frame scope stop p.pc out c (p + .one).pc
        (out.openElement (.plain tag key)) c := .plain (by omega) hi rfl rfl
    have featured := leads_features frame scope stop [] out.stack out.nodes features (p + .one)
      (.plain tag key) c hf (by simp only [Place.add_pc, Place.one_pc]; omega)
    rw [Place.add_assoc] at featured
    have filled := leads_items frame scope stop children (p + (.one + Features.room features))
      { out with stack := ((Features.render t (p + .one) scope (.plain tag key) features c).1, [])
          :: out.stack }
      (Features.render t (p + .one) scope (.plain tag key) features c).2 hc
      (by simp only [Place.add_pc, Place.one_pc]; omega)
    refine (opened.trans (featured.trans filled)).trans (.plain ?_ ha rfl ?_)
    · simp only [Place.add_pc, Place.one_pc]
      omega
    · show (Run.need (Output.close? _) _ : Run Output) _ = _
      rw [Output.close?_extend_opened]
      rfl
  | .block b, p, out, c, h, hs => by
    have h : b.Hosted t.program p := h
    obtain ⟨instr, hi, hb⟩ := h.opensBlock
    have hlt : p.pc < (p + b.room).pc := by
      rw [← b.stop_succ p]
      exact Nat.lt_succ_of_le (b.le_stop p)
    refine .of_step (Nat.lt_of_lt_of_le hlt hs) hlt fun fuel hf => ?_
    rw [run_block (Nat.lt_of_lt_of_le hlt hs) hi hb,
      stateful_bind_ok (runBlock_eq scope b p fuel c h (by
        simp only [Item.room, Place.add_pc] at hs
        omega))]
    have hstop : (b.render t p scope c).1.1.stop + 1 = (p + b.room).pc := by
      rw [b.render_anchor]
      exact b.stop_succ p
    show t.run fuel frame scope stop ((b.render t p scope c).1.1.stop + 1) _ _ = _
    rw [hstop]
    rfl

theorem leads_items (frame : Frame) (scope : Scope) (stop : Nat) :
    ∀ (items : List Item) (p : Place) (out : Output) (c : Context), Items.Hosted t.program p items →
      (p + Items.room items).pc ≤ stop →
      t.Leads frame scope stop p.pc out c (p + Items.room items).pc
        (out.extend (Items.render t p scope items c).1) (Items.render t p scope items c).2
  | [], _, _, _, _, _ => .refl
  | i :: rest, p, out, c, h, hs => by
    obtain ⟨hi, hr⟩ := h.cons
    rw [Items.room, ← Place.add_assoc] at hs ⊢
    have hle : (p + i.room).pc ≤ stop := by
      simp only [Place.add_pc] at hs ⊢
      omega
    have others := leads_items frame scope stop rest (p + i.room) (out.extend [(i.render t p scope c).1])
      (i.render t p scope c).2 hr hs
    rw [← Output.extend_append] at others
    exact (leads_item frame scope stop i p out c hi hle).trans others

/-- The action at the place of a block gives the nodes of the block. -/
theorem runBlock_eq (scope : Scope) : ∀ (b : Block) (p : Place) (fuel : Nat) (c : Context),
    b.Hosted t.program p → b.room.pc ≤ fuel →
      t.runBlock fuel p.pc scope c = (.ok (b.render t p scope c).1, (b.render t p scope c).2)
  | .emit e mode, p, fuel, c, h, hf => by
    obtain ⟨fuel, rfl⟩ : ∃ n, fuel = n + 1 := ⟨fuel - 1, by simp [Block.room] at hf; omega⟩
    rw [runBlock, runBlockIn, h.emit.1]
    rfl
  | .chain clauses, p, fuel, c, h, hf => by
    obtain ⟨hi, -, hc, -⟩ := h.chain
    simp only [Block.room, Place.add_pc, Place.acting_pc, Place.one_pc] at hf
    obtain ⟨fuel, rfl⟩ : ∃ n, fuel = n + 1 := ⟨fuel - 1, by omega⟩
    have hs : (Block.chain clauses).stop p = (p + .acting + clauses.room).pc := by
      rw [Block.stop, Place.add_assoc]
    have body := run_clauses p.action scope clauses (p + .acting) _ fuel .empty c hc hs (by
      simp only [hs, Place.add_pc, Place.acting_pc]
      omega)
    rw [runBlock, runBlockIn, hi]
    show (t.run fuel (.conditional p.action) scope _ (p + .acting).pc .empty >>= _) c = _
    rw [stateful_bind_ok body, Output.finish_extend_empty]
    rfl
  | .loop binding collection body, p, fuel, c, h, hf => by
    obtain ⟨hi, -, hn, hb, hj, -⟩ := h.loop
    simp only [Block.room, Place.add_pc, Place.acting_pc, Place.one_pc] at hf
    obtain ⟨fuel, rfl⟩ : ∃ n, fuel = n + 1 := ⟨fuel - 1, by omega⟩
    have hs : (Block.loop binding collection body).stop p =
        (p + (.acting + .one) + Items.room body).pc + 1 := by
      simp only [Block.stop, Place.add_pc, Place.acting_pc, Place.one_pc]
      omega
    have round (out : Output) (item : LoopItem) (c : Context) :
        t.run fuel (.loop (p.pc + 1)) (scope ++ binding.bind item)
          ((Block.loop binding collection body).stop p) (p.pc + 2) out c =
        (.ok (out.extend
            (Items.render t (p + (.acting + .one)) (scope ++ binding.bind item) body c).1),
          (Items.render t (p + (.acting + .one)) (scope ++ binding.bind item) body c).2) := by
      refine (leads_items _ _ _ body (p + (.acting + .one)) out c hb ?_).round ?_ hj ?_
      · rw [hs]
        exact Nat.le_succ _
      · rw [hs]
        exact Nat.lt_succ_self _
      · simp only [hs, Place.add_pc, Place.acting_pc, Place.one_pc]
        omega
    rw [runBlock, runBlockIn, hi]
    show (do
      let items ← t.items scope collection p.action
      _ : Run (Anchor × List Node)) c = _
    rw [stateful_lift_bind, hn]
    show (if _ then _ else _ : Run (Anchor × List Node)) _ = _
    rw [if_pos rfl, stateful_bind_ok (foldlM_rounds round _ _ _), Output.finish_extend_empty]
    rfl

/-- A run over the clauses of a conditional ends with the nodes of the clause that is chosen. -/
theorem run_clauses (action : ActionId) (scope : Scope) :
    ∀ (clauses : Clauses) (p : Place) (stop fuel : Nat) (out : Output) (c : Context),
      Clauses.Hosted t.program p stop clauses → stop = (p + clauses.room).pc → stop - p.pc < fuel →
      t.run fuel (.conditional action) scope stop p.pc out c =
        (.ok (out.extend (clauses.render t action p scope c).1),
          (clauses.render t action p scope c).2)
  | .done, p, stop, fuel, out, c, _, hs, _ => run_past (by rw [hs]; exact Nat.le_refl _)
  | .otherwise body, p, stop, fuel, out, c, h, hs, hf => by
    subst hs
    exact (leads_items _ scope _ body p out c h (Nat.le_refl _)).run_eq hf
  | .clause test negate body rest, p, stop, fuel, out, c, h, hs, hf => by
    obtain ⟨hi, hb, hx, hr⟩ := h.clause
    obtain ⟨fuel, rfl⟩ : ∃ n, fuel = n + 1 := ⟨fuel - 1, by omega⟩
    have hs' : stop = (Clauses.next p body rest + rest.room).pc := by
      simp only [hs, Clauses.room, Clauses.next, Place.add_pc, Place.one_pc]
      omega
    simp only [Clauses.next, Place.add_pc, Place.one_pc] at hs'
    have taken (c : Context) : t.run fuel (.conditional action) scope stop (p + .one).pc out c =
        (.ok (out.extend (Items.render t (p + .one) scope body c).1),
          (Items.render t (p + .one) scope body c).2) := by
      refine Leads.run_eq ?_ (by simp only [Place.add_pc, Place.one_pc]; omega)
      have inside := leads_items (.conditional action) scope stop body (p + .one) out c hb
        (by simp only [Place.add_pc, Place.one_pc]; omega)
      by_cases hd : rest.isDone = true
      · have hend : (p + .one + Items.room body).pc = stop := by
          obtain rfl : rest = .done := by cases rest <;> first | rfl | cases hd
          simp only [hs, Clauses.room, Clauses.exitRoom, Clauses.isDone, if_pos, Place.add_pc,
            Place.start_pc]
          omega
        rw [hend] at inside
        exact inside
      · have hroom : rest.exitRoom.pc = 1 := by rw [Clauses.exitRoom, if_neg hd]; rfl
        have hlt : (p + .one + Items.room body).pc < stop := by
          simp only [Place.add_pc, Place.one_pc]
          omega
        refine inside.trans (.of_step hlt hlt fun fuel _ => ?_)
        rw [run_jump hlt (hx (by simpa using hd)), if_neg Frame.noConfusion]
    rw [run_branch (by omega) hi, Clauses.render_clause]
    rcases t.test scope test negate action c with ⟨_ | _ | _, c⟩
    · rfl
    · exact run_clauses action scope rest _ stop fuel out c hr hs'
        (by simp only [Clauses.next, Place.add_pc, Place.one_pc]; omega)
    · exact taken c

end

end Template

/-! ## Programs -/

/-- Running a program gives the nodes of its outline. -/
theorem Template.runAll_eq {t : Template} {items : List Item} (h : t.program.LaidOut items)
    (c : Context) :
    t.runAll c = (.ok (Items.render t .start [] items c).1, (Items.render t .start [] items c).2) := by
  have whole := leads_items .page [] t.program.instrs.size items .start .empty c h.hosted
    (by rw [h.size, Place.start_add])
  rw [Place.start_add, ← h.size] at whole
  have ends : t.run t.fuel .page [] t.program.instrs.size 0 .empty c =
      (.ok (Output.empty.extend (Items.render t .start [] items c).1),
        (Items.render t .start [] items c).2) := whole.run_eq (Nat.lt_succ_self _)
  rw [runAll, runAllIn, stateful_bind_ok ends, Output.finish_extend_empty]
  rfl

theorem Template.render_eq {t : Template} {items : List Item} (h : t.program.LaidOut items)
    (c : Context) : t.render c = Items.render t .start [] items (t.prepare c) := by
  rw [render, runAll_eq h]
  rfl

end LiveTemplate
