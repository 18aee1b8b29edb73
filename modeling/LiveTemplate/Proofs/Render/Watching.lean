/-
Runs that are watched. The interpreter runs wherever instructions can be executed; here each one that
is executed leaves a note, together with the variables that are in scope then. Leaving the notes out
gives the plain runs, so what is noted is what a template does.

On a compiled template the two accounts of the variables agree. Whatever is rendered or run again,
every instruction finds the variables in scope that the builder had in scope when it appended the
instruction, and with them every variable that its expression or handler mentions.
-/
import LiveTemplate.Proofs.Component.Refresh
import LiveTemplate.Proofs.Program.Scoping
import LiveTemplate.Proofs.Render.Safety

namespace LiveTemplate

/-! ## Notes -/

/-- An instruction that was executed, and the variables in scope then. -/
structure Visit where
  pc : Nat
  scope : Scope

/-- Runs that note what they execute. -/
abbrev Watched := ExceptT Stuck (StateM (Context × List Visit))

instance : Executor Watched where
  visit pc scope work := fun s => ((work s.1).1, ((work s.1).2, s.2 ++ [⟨pc, scope⟩]))
  between work := fun s => ((work s.1).1, ((work s.1).2, s.2))

namespace Template

/-- Runs the whole program and notes its instructions. -/
def watchedRunAll (t : Template) : Watched (List Node) := t.runAllIn

/-- Runs parts of nodes again and notes their instructions. -/
def watchedNodes (t : Template) (actions : List ActionId) (nodes : List Node) :
    Watched (List Node × List ActionId) :=
  t.updateNodesIn actions nodes

end Template

/-! ## Leaving the notes out -/

/-- A watched run does what the run does, and all that it notes has a property. -/
def Traces {α : Type} (P : Visit → Prop) (w : Watched α) (m : Run α) : Prop :=
  ∀ c seen, ∃ visits, w (c, seen) = ((m c).1, ((m c).2, seen ++ visits)) ∧ ∀ v ∈ visits, P v

namespace Traces

variable {α β : Type} {P : Visit → Prop} {w : Watched α} {m : Run α}

theorem between (m : Run α) : Traces P (Executor.between m) m := by
  intro c seen
  refine ⟨[], ?_, fun _ hv => absurd hv List.not_mem_nil⟩
  rw [List.append_nil]
  rfl

theorem pure (a : α) : Traces P (Pure.pure a : Watched α) (Pure.pure a : Run α) :=
  between (P := P) (Pure.pure a : Run α)

theorem throw (stuck : Stuck) :
    Traces P (MonadExcept.throw stuck : Watched α) (MonadExcept.throw stuck : Run α) :=
  between (P := P) (MonadExcept.throw stuck : Run α)

theorem visit {pc : Nat} {scope : Scope} (h : P ⟨pc, scope⟩) (m : Run α) :
    Traces P (Executor.visit pc scope m) m := by
  intro c seen
  refine ⟨[⟨pc, scope⟩], rfl, fun v hv => ?_⟩
  rw [List.mem_singleton.1 hv]
  exact h

/-- One run after another, where the second is one that the first can lead to. -/
theorem bind {f : α → Watched β} {g : α → Run β} (h : Traces P w m)
    (hf : ∀ a c c', m c = (.ok a, c') → Traces P (f a) (g a)) : Traces P (w >>= f) (m >>= g) := by
  intro c seen
  obtain ⟨visits, hw, hv⟩ := h c seen
  rw [stateful_bind, stateful_bind, hw]
  rcases hm : m c with ⟨stuck | a, c'⟩
  · exact ⟨visits, rfl, hv⟩
  · obtain ⟨more, hw', hv'⟩ := hf a c c' hm c' (seen ++ visits)
    refine ⟨visits ++ more, ?_, fun v h => (List.mem_append.1 h).elim (hv v) (hv' v)⟩
    rw [← List.append_assoc]
    exact hw'

theorem foldlM {f : β → α → Watched β} {g : β → α → Run β}
    (h : ∀ b a, Traces P (f b a) (g b a)) : ∀ (l : List α) (b : β),
    Traces P (l.foldlM f b) (l.foldlM g b)
  | [], b => pure b
  | a :: l, b => by
    rw [List.foldlM_cons, List.foldlM_cons]
    exact (h b a).bind fun b _ _ _ => foldlM h l b

end Traces

namespace Template

variable {t : Template} {P : Visit → Prop} {frame : Frame} {scope : Scope} {stop pc : Nat}

/-- The run from a position is watched, whatever its output and its number of steps. -/
def Watches (t : Template) (P : Visit → Prop) (frame : Frame) (scope : Scope) (stop pc : Nat) :
    Prop :=
  ∀ fuel out,
    Traces P (t.runIn fuel frame scope stop pc out) (t.run fuel frame scope stop pc out)

namespace Watches

/-- It is enough to look at runs that have not ended and have a step left. -/
theorem of_step (h : pc < stop → ∀ fuel out,
    Traces P (t.runIn (fuel + 1) frame scope stop pc out)
      (t.run (fuel + 1) frame scope stop pc out)) : t.Watches P frame scope stop pc := by
  intro fuel out
  by_cases hpc : pc < stop
  · cases fuel with
    | zero =>
      rw [run, runIn, runIn, if_pos hpc, if_pos hpc]
      exact .throw _
    | succ fuel => exact h hpc fuel out
  · cases fuel <;> rw [run, runIn, runIn, if_neg hpc, if_neg hpc] <;> exact .pure _

theorem past (h : stop ≤ pc) : t.Watches P frame scope stop pc :=
  of_step fun hpc => absurd hpc (Nat.not_lt.2 h)

theorem plain {instr : Instr} (hi : t.program.instrs[pc]? = some instr)
    (hp : isPlain instr = true) (hv : P ⟨pc, scope⟩)
    (next : t.Watches P frame scope stop (pc + 1)) : t.Watches P frame scope stop pc := by
  refine of_step fun hpc fuel out => ?_
  have both := (Traces.visit hv (t.step scope pc instr out)).bind fun out' _ _ _ => next fuel out'
  rw [run, runIn, runIn, if_pos hpc, if_pos hpc]
  simp only [hi, Run.need]
  cases instr <;> first | exact both | cases hp

theorem block {instr : Instr} {after : Nat} (hi : t.program.instrs[pc]? = some instr)
    (hb : instr.opensBlock = true)
    (inside : ∀ fuel, Traces P (t.runBlockIn fuel pc scope) (t.runBlock fuel pc scope))
    (ends : ∀ fuel anchor children c c',
      t.runBlock fuel pc scope c = (.ok (anchor, children), c') → anchor.stop + 1 = after)
    (next : t.Watches P frame scope stop after) : t.Watches P frame scope stop pc := by
  refine of_step fun hpc fuel out => ?_
  have both : Traces P
      (t.runBlockIn fuel pc scope >>= fun x =>
        t.runIn fuel frame scope stop (x.1.stop + 1) (out.push (.block x.1 x.2)))
      (t.runBlock fuel pc scope >>= fun x =>
        t.run fuel frame scope stop (x.1.stop + 1) (out.push (.block x.1 x.2))) := by
    refine (inside fuel).bind fun x c c' hx => ?_
    rw [ends fuel x.1 x.2 c c' hx]
    exact next fuel _
  rw [run, runIn, runIn, if_pos hpc, if_pos hpc]
  simp only [hi, Run.need]
  cases instr <;> first | exact both | cases hb

theorem branch {action : ActionId} {e : Expr} {negate : Bool} {target : Nat}
    (hi : t.program.instrs[pc]? = some (.branch e negate target)) (hv : P ⟨pc, scope⟩)
    (taken : t.Watches P (.conditional action) scope stop (pc + 1))
    (skipped : t.Watches P (.conditional action) scope stop target) :
    t.Watches P (.conditional action) scope stop pc := by
  refine of_step fun hpc fuel out => ?_
  rw [run, runIn, runIn, if_pos hpc, if_pos hpc]
  simp only [hi, Run.need, pure_bind]
  refine (Traces.visit hv _).bind fun result _ _ _ => ?_
  rcases result with _ | _ | _
  · exact .pure out
  · exact skipped fuel out
  · exact taken fuel out

theorem jump {target : Nat} (hi : t.program.instrs[pc]? = some (.jump target))
    (next : frame = .loop target ∨ t.Watches P frame scope stop target) :
    t.Watches P frame scope stop pc := by
  refine of_step fun hpc fuel out => ?_
  rw [run, runIn, runIn, if_pos hpc, if_pos hpc]
  simp only [hi, Run.need]
  show Traces P (if frame = .loop target then _ else _) (if frame = .loop target then _ else _)
  split
  · exact .pure out
  · exact next.resolve_left ‹_› fuel out

end Watches

end Template

/-! ## Agreement -/

/-- The variables that the expression or the handler of an instruction mentions. -/
def Instr.boundNames : Instr → Names
  | setAttributeExpr _ e _ | emit e _ _ | branch e _ _ | openLoop _ _ e _ => e.boundNames
  | addListener _ handler => handler.locals
  | _ => []

/-- An instruction was executed with exactly the variables in scope that are listed for it. It
finds each variable that it mentions, so none of them is ever undefined. -/
structure Visit.Agrees (program : Program) (vars : List (List String)) (v : Visit) : Prop where
  names : vars[v.pc]? = some v.scope.names
  bound : ∀ instr, program.instrs[v.pc]? = some instr → ∀ n ∈ instr.boundNames,
    ∃ var, v.scope.find? n = some var ∧ ∀ (env : Env) (span : Span) (s : State),
      env.scope = v.scope → env.root span (.bound n) s = (.ok var.value, s)

theorem Visit.agrees {program : Program} {vars : List (List String)} {pc : Nat} {scope : Scope}
    {instr : Instr} (hv : vars[pc]? = some scope.names) (hi : program.instrs[pc]? = some instr)
    (hw : ∀ n ∈ instr.boundNames, n ∈ scope.names) : Visit.Agrees program vars ⟨pc, scope⟩ := by
  refine ⟨hv, fun instr' hi' n hn => ?_⟩
  cases hi.symm.trans hi'
  obtain ⟨var, found⟩ := Scope.find?_of_mem (hw n hn)
  refine ⟨var, found, fun env span s hs => ?_⟩
  subst hs
  simp only [Env.root, found]
  rfl

/-- A binding that fits brings exactly its names into scope, whatever the item is. -/
theorem LoopBinding.Fits.bind_names {b : LoopBinding} (h : b.Fits) (item : LoopItem) :
    Scope.names (b.bind item) = b.names := by
  rw [b.names_bind item]
  unfold LoopBinding.names
  by_cases alone : b.params.length = 1
  · rw [if_pos alone]
  · have none_along : b.indexParam = none := by
      cases hi : b.indexParam with
      | none => rfl
      | some i => exact absurd (h.2 (by rw [hi]; rfl)) alone
    rw [if_neg alone, none_along]
    rfl

namespace Template

variable {t : Template} {vars : List (List String)}

/-- Whatever number of steps the run of a block has, it ends where the block ends. -/
theorem runBlock_stop {b : Block} {p : Place} {scope : Scope} {fuel : Nat} {anchor : Anchor}
    {children : List Node} {c c' : Context} (h : b.Hosted t.program p)
    (hr : t.runBlock fuel p.pc scope c = (.ok (anchor, children), c')) :
    anchor.stop = b.stop p := by
  cases fuel with
  | zero => cases hr
  | succ fuel =>
    cases b with
    | emit e mode =>
      rw [runBlock, runBlockIn, h.emit.1] at hr
      cases hr
      rfl
    | chain clauses =>
      rw [runBlock, runBlockIn, h.chain.1] at hr
      obtain ⟨out, c₁, -, hr⟩ := stateful_results_of_bind hr
      cases hr
      rfl
    | loop binding collection body =>
      obtain ⟨hi, -, hn, -⟩ := h.loop
      rw [runBlock, runBlockIn, hi] at hr
      obtain ⟨items, c₁, -, hr⟩ := stateful_results_of_bind hr
      rw [hn] at hr
      simp only [if_pos] at hr
      obtain ⟨out, c₂, -, hr⟩ := stateful_results_of_bind hr
      cases hr
      rfl

/-! ## Runs -/

theorem watches_features (frame : Frame) (scope : Scope) (stop : Nat) :
    ∀ (features : List Feature) (p : Place), Features.Hosted t.program p features →
      Sits vars p.pc (List.replicate features.length scope.names) →
      (∀ f ∈ features, f.Within scope.names) →
      t.Watches (Visit.Agrees t.program vars) frame scope stop (p + Features.room features).pc →
      t.Watches (Visit.Agrees t.program vars) frame scope stop p.pc
  | [], _, _, _, _, next => next
  | f :: rest, p, h, hv, hw, next => by
    obtain ⟨hi, -, hr⟩ := h.cons
    obtain ⟨hv, hvs⟩ := Sits.cons.1 hv
    obtain ⟨hw, hws⟩ := List.forall_mem_cons.1 hw
    have hf : f.room.pc = 1 := by cases f <;> rfl
    have mentions : ∀ n ∈ (f.instr p).boundNames, n ∈ scope.names := by
      cases f with
      | dynamic | listener => exact hw
      | plain | flag => exact fun _ hn => absurd hn List.not_mem_nil
    rw [Features.room, ← Place.add_assoc] at next
    rw [← hf] at hvs
    have others := watches_features frame scope stop rest (p + f.room) hr hvs hws next
    rw [Place.add_pc, hf] at others
    have plain : isPlain (f.instr p) = true := by cases f <;> rfl
    exact .plain hi plain (Visit.agrees hv hi mentions) others

mutual

/-- A run over a part is watched if the run from behind it is. -/
theorem watches_item (frame : Frame) (scope : Scope) (stop : Nat) :
    ∀ (i : Item) (p : Place), i.Hosted t.program p → Sits vars p.pc (i.vars scope.names) →
      i.Within scope.names →
      t.Watches (Visit.Agrees t.program vars) frame scope stop (p + i.room).pc →
      t.Watches (Visit.Agrees t.program vars) frame scope stop p.pc
  | .text s, p, h, hv, _, next => by
    unfold Item.Hosted at h
    rw [Item.code] at h
    rw [Item.vars] at hv
    have hi := h.cons.1
    have silent : ∀ n ∈ (Instr.createText s).boundNames, n ∈ scope.names :=
      fun _ hn => absurd hn List.not_mem_nil
    exact .plain hi rfl (Visit.agrees (Sits.cons.1 hv).1 hi silent) next
  | .element tag key features children, p, h, hv, hw, next => by
    obtain ⟨hi, hf, hc, ha⟩ := h.element
    rw [Item.vars] at hv
    obtain ⟨hv, hvs⟩ := Sits.cons.1 hv
    obtain ⟨hvf, hvs⟩ := Sits.append.1 hvs
    obtain ⟨hvc, hva⟩ := Sits.append.1 hvs
    rw [List.length_replicate, ← Features.room_pc] at hvc hva
    rw [Items.vars_length] at hva
    have hroom : (p + (Item.element tag key features children).room).pc =
        (p + (.one + Features.room features) + Items.room children).pc + 1 := by
      simp only [Item.room, Place.add_pc, Place.one_pc]
      omega
    rw [hroom] at next
    -- From the last instruction back to the first: each is watched if what follows it is.
    have closed : t.Watches (Visit.Agrees t.program vars) frame scope stop
        (p + (.one + Features.room features) + Items.room children).pc := by
      refine .plain ha rfl (Visit.agrees ?_ ha fun _ hn => absurd hn List.not_mem_nil) next
      rw [← (Sits.cons.1 hva).1]
      simp only [Place.add_pc, Place.one_pc]
      congr 1
      omega
    have filled := watches_items frame scope stop children (p + (.one + Features.room features)) hc
      (by simpa [Place.add_pc, Nat.add_assoc] using hvc) hw.2 closed
    rw [← Place.add_assoc] at filled
    have featured := watches_features frame scope stop features (p + .one) hf hvf hw.1 filled
    exact .plain hi rfl (Visit.agrees hv hi fun _ hn => absurd hn List.not_mem_nil) featured
  | .block b, p, h, hv, hw, next => by
    have h : b.Hosted t.program p := h
    obtain ⟨instr, hi, hb⟩ := h.opensBlock
    refine .block hi hb (fun fuel => traces_block scope b p fuel h hv hw) ?_ next
    intro fuel anchor children c c' hr
    rw [runBlock_stop h hr]
    exact b.stop_succ p

theorem watches_items (frame : Frame) (scope : Scope) (stop : Nat) :
    ∀ (items : List Item) (p : Place), Items.Hosted t.program p items →
      Sits vars p.pc (Items.vars scope.names items) → Items.Within scope.names items →
      t.Watches (Visit.Agrees t.program vars) frame scope stop (p + Items.room items).pc →
      t.Watches (Visit.Agrees t.program vars) frame scope stop p.pc
  | [], _, _, _, _, next => next
  | i :: rest, p, h, hv, hw, next => by
    obtain ⟨hi, hr⟩ := h.cons
    rw [Items.vars] at hv
    obtain ⟨hv, hvs⟩ := Sits.append.1 hv
    rw [Item.vars_length] at hvs
    rw [Items.room, ← Place.add_assoc] at next
    have others := watches_items frame scope stop rest (p + i.room) hr hvs hw.2 next
    exact watches_item frame scope stop i p hi hv hw.1 others

/-- The run of a block is watched, wherever it is run from. -/
theorem traces_block (scope : Scope) : ∀ (b : Block) (p : Place) (fuel : Nat),
    b.Hosted t.program p → Sits vars p.pc (b.vars scope.names) → b.Within scope.names →
      Traces (Visit.Agrees t.program vars) (t.runBlockIn fuel p.pc scope)
        (t.runBlock fuel p.pc scope)
  | b, p, 0, _, _, _ => by
    rw [runBlock, runBlockIn, runBlockIn]
    exact .throw _
  | .emit e mode, p, fuel + 1, h, hv, hw => by
    have hi := h.emit.1
    have agrees : Visit.Agrees t.program vars ⟨p.pc, scope⟩ := Visit.agrees (Sits.cons.1 hv).1 hi hw
    rw [runBlock, runBlockIn, runBlockIn, hi]
    exact (Traces.visit agrees _).bind fun _ _ _ _ => .pure _
  | .chain clauses, p, fuel + 1, h, hv, hw => by
    obtain ⟨hi, -, hc, -⟩ := h.chain
    rw [Block.vars] at hv
    obtain ⟨-, hvs⟩ := Sits.cons.1 hv
    have hs : (Block.chain clauses).stop p = (p + .acting + clauses.room).pc := by
      rw [Block.stop, Place.add_assoc]
    have inside := watches_clauses p.action scope clauses (p + .acting) _ hc
      (Sits.append.1 hvs).1 hw hs
    rw [runBlock, runBlockIn, runBlockIn, hi]
    exact (inside fuel .empty).bind fun _ _ _ _ => .pure _
  | .loop binding collection body, p, fuel + 1, h, hv, hw => by
    obtain ⟨hi, -, hn, hb, hj, -⟩ := h.loop
    obtain ⟨hc, fits, hbody⟩ := hw
    rw [Block.vars] at hv
    obtain ⟨hv, hvs⟩ := Sits.cons.1 hv
    obtain ⟨-, hvs⟩ := Sits.cons.1 hvs
    have agrees : Visit.Agrees t.program vars ⟨p.pc, scope⟩ := Visit.agrees hv hi hc
    -- Every round has the names of the binding in scope, in the order in which they are listed.
    have round (item : LoopItem) : t.Watches (Visit.Agrees t.program vars) (.loop (p.pc + 1))
        (scope ++ binding.bind item) ((Block.loop binding collection body).stop p) (p.pc + 2) := by
      have names_eq : Scope.names (scope ++ binding.bind item) = scope.names ++ binding.names := by
        rw [Scope.names_append, fits.bind_names]
      rw [← names_eq] at hvs hbody
      have inside : Sits vars (p + (Place.acting + .one)).pc
          (Items.vars (Scope.names (scope ++ binding.bind item)) body) := (Sits.append.1 hvs).1
      exact watches_items (.loop (p.pc + 1)) (scope ++ binding.bind item) _ body _ hb inside hbody
        (.jump hj (.inl rfl))
    rw [runBlock, runBlockIn, runBlockIn, hi]
    refine (Traces.visit agrees _).bind fun items _ _ _ => ?_
    rw [hn]
    simp only [if_pos]
    exact (Traces.foldlM (fun out item => round item fuel out) items .empty).bind
      fun _ _ _ _ => .pure _

/-- A run over the clauses of a conditional is watched. -/
theorem watches_clauses (action : ActionId) (scope : Scope) :
    ∀ (clauses : Clauses) (p : Place) (stop : Nat), Clauses.Hosted t.program p stop clauses →
      Sits vars p.pc (clauses.vars scope.names) → clauses.Within scope.names →
      stop = (p + clauses.room).pc →
      t.Watches (Visit.Agrees t.program vars) (.conditional action) scope stop p.pc
  | .done, p, stop, _, _, _, hs => .past hs.le
  | .otherwise body, p, stop, h, hv, hw, hs =>
    watches_items _ scope stop body p h hv hw (.past hs.le)
  | .clause test negate body rest, p, stop, h, hv, hw, hs => by
    obtain ⟨hi, hb, hx, hr⟩ := h.clause
    rw [Clauses.vars] at hv
    obtain ⟨hv, hvs⟩ := Sits.cons.1 hv
    obtain ⟨hvb, hvs⟩ := Sits.append.1 hvs
    obtain ⟨-, hvr⟩ := Sits.append.1 hvs
    rw [List.length_replicate, Items.vars_length] at hvr
    have hs' : stop = (Clauses.next p body rest + rest.room).pc := by
      simp only [hs, Clauses.room, Clauses.next, Place.add_pc, Place.one_pc]
      omega
    have skipped := watches_clauses action scope rest (Clauses.next p body rest) stop hr
      (by simpa [Clauses.next, Place.add_pc, Nat.add_assoc] using hvr) hw.2.2 hs'
    have after : t.Watches (Visit.Agrees t.program vars) (.conditional action) scope stop
        (p + .one + Items.room body).pc := by
      by_cases hd : rest.isDone = true
      · -- Nothing follows, so the clause ends where the conditional does.
        obtain rfl : rest = .done := by cases rest <;> first | rfl | cases hd
        refine .past (Nat.le_of_eq ?_)
        simp only [hs, Clauses.room, Clauses.exitRoom, Clauses.isDone, if_pos, Place.add_pc,
          Place.start_pc]
        omega
      · exact .jump (hx (by simpa using hd)) (.inr (.past (Nat.le_refl stop)))
    have taken := watches_items (.conditional action) scope stop body (p + .one) hb hvb hw.2.1 after
    exact .branch hi (Visit.agrees hv hi hw.1) taken skipped

end

/-- A render of a whole program is watched. -/
theorem traces_runAll {items : List Item} (hl : t.program.LaidOut items)
    (hw : Items.Within [] items) :
    Traces (Visit.Agrees t.program (Items.vars [] items)) t.watchedRunAll t.runAll := by
  have whole : t.Watches (Visit.Agrees t.program (Items.vars [] items)) .page []
      t.program.instrs.size 0 :=
    watches_items .page [] t.program.instrs.size items .start hl.hosted (Sits.refl _) hw
      (.past (by rw [hl.size, Place.start_add]))
  exact (whole t.fuel .empty).bind fun _ _ _ _ => .pure _

end Template

/-! ## Trees -/

/-- A block stands at a place of a program where exactly the given variables are in scope, and
keeps to them. -/
structure Block.Scoped (program : Program) (vars : List (List String)) (p : Place)
    (ns : List String) (b : Block) : Prop where
  hosted : b.Hosted program p
  vars : Sits vars p.pc (b.vars ns)
  within : b.Within ns

mutual

/-- The blocks and dynamic attributes of a node remember the variables that are in scope at their
instructions. -/
def Node.Scoped (program : Program) (vars : List (List String)) : Node → Prop
  | .text _ | .html _ => True
  | .element e children =>
    (∀ b ∈ e.bindings, Visit.Agrees program vars ⟨b.pc, b.scope⟩) ∧
      Nodes.Scoped program vars children
  | .block anchor children =>
    (∃ (p : Place) (b : Block), p.pc = anchor.start ∧
      b.Scoped program vars p anchor.scope.names) ∧ Nodes.Scoped program vars children

def Nodes.Scoped (program : Program) (vars : List (List String)) : List Node → Prop
  | [] => True
  | n :: rest => n.Scoped program vars ∧ Nodes.Scoped program vars rest

end

section

variable {t : Template} {vars : List (List String)}

theorem Nodes.scoped_iff {program : Program} : ∀ {nodes : List Node},
    Nodes.Scoped program vars nodes ↔ ∀ n ∈ nodes, n.Scoped program vars := by
  intro nodes
  induction nodes with
  | nil => simp [Nodes.Scoped]
  | cons n rest ih => rw [Nodes.Scoped, ih, List.forall_mem_cons]

mutual

theorem Node.Static.scoped {program : Program} : ∀ {n : Node}, n.Static → n.Scoped program vars
  | .text _, _ | .html _, _ => trivial
  | .element e children, h => by
    refine ⟨fun b hb => ?_, Nodes.Static.scoped h.2⟩
    rw [h.1] at hb
    cases hb

theorem Nodes.Static.scoped {program : Program} : ∀ {nodes : List Node},
    Nodes.Static nodes → Nodes.Scoped program vars nodes
  | [], _ => trivial
  | _ :: _, h => ⟨h.1.scoped, Nodes.Static.scoped h.2⟩

end

theorem Features.render_scoped {scope : Scope} : ∀ (features : List Feature) (p : Place)
    (e : Element) (c : Context), Features.Hosted t.program p features →
      Sits vars p.pc (List.replicate features.length scope.names) →
      (∀ f ∈ features, f.Within scope.names) →
      (∀ b ∈ e.bindings, Visit.Agrees t.program vars ⟨b.pc, b.scope⟩) →
      ∀ b ∈ (Features.render t p scope e features c).1.bindings,
        Visit.Agrees t.program vars ⟨b.pc, b.scope⟩
  | [], _, _, _, _, _, _, he => he
  | f :: rest, p, e, c, h, hv, hw, he => by
    obtain ⟨hi, -, hr⟩ := h.cons
    obtain ⟨here, hvs⟩ := Sits.cons.1 hv
    obtain ⟨mentions, hws⟩ := List.forall_mem_cons.1 hw
    have hf : f.room.pc = 1 := by cases f <;> rfl
    rw [← hf] at hvs
    refine Features.render_scoped rest (p + f.room) (f.render t p scope e c).1
      (f.render t p scope e c).2 hr hvs hws ?_
    cases f with
    | dynamic name expr =>
      intro b hb
      rcases List.mem_append.1 hb with hb | hb
      · exact he b hb
      · cases List.mem_singleton.1 hb
        exact Visit.agrees here hi mentions
    | _ => exact he

mutual

/-- What a part renders to remembers the variables in scope. -/
theorem Item.render_scoped : ∀ (i : Item) (p : Place) (scope : Scope) (c : Context),
    i.Hosted t.program p → Sits vars p.pc (i.vars scope.names) → i.Within scope.names →
      (i.render t p scope c).1.Scoped t.program vars
  | .text _, _, _, _, _, _, _ => trivial
  | .element tag key features children, p, scope, c, h, hv, hw => by
    obtain ⟨-, hf, hc, -⟩ := h.element
    rw [Item.vars] at hv
    obtain ⟨-, hvs⟩ := Sits.cons.1 hv
    obtain ⟨hvf, hvs⟩ := Sits.append.1 hvs
    have hvc := (Sits.append.1 hvs).1
    rw [List.length_replicate, ← Features.room_pc] at hvc
    refine ⟨Features.render_scoped features (p + .one) (.plain tag key) c hf hvf hw.1
      (fun _ hb => absurd hb List.not_mem_nil), ?_⟩
    exact Items.render_scoped children (p + (.one + Features.room features)) scope _ hc
      (by simpa [Place.add_pc, Nat.add_assoc] using hvc) hw.2
  | .block b, p, scope, c, h, hv, hw => by
    refine ⟨⟨p, b, ?_, ?_⟩, Block.render_scoped b p scope c ⟨h, hv, hw⟩⟩
    · rw [b.render_anchor]
    · rw [b.render_anchor]
      exact ⟨h, hv, hw⟩

theorem Items.render_scoped : ∀ (items : List Item) (p : Place) (scope : Scope) (c : Context),
    Items.Hosted t.program p items → Sits vars p.pc (Items.vars scope.names items) →
      Items.Within scope.names items →
      Nodes.Scoped t.program vars (Items.render t p scope items c).1
  | [], _, _, _, _, _, _ => trivial
  | i :: rest, p, scope, c, h, hv, hw => by
    obtain ⟨hi, hr⟩ := h.cons
    rw [Items.vars] at hv
    obtain ⟨hv, hvs⟩ := Sits.append.1 hv
    rw [Item.vars_length] at hvs
    exact ⟨Item.render_scoped i p scope c hi hv hw.1,
      Items.render_scoped rest (p + i.room) scope _ hr hvs hw.2⟩

theorem Block.render_scoped : ∀ (b : Block) (p : Place) (scope : Scope) (c : Context),
    b.Scoped t.program vars p scope.names → Nodes.Scoped t.program vars (b.render t p scope c).1.2
  | .emit e mode, p, scope, c, _ => (t.emitted_static e mode p.action c).scoped
  | .chain clauses, p, scope, c, h => by
    obtain ⟨-, -, hc, -⟩ := h.hosted.chain
    have hvs := h.vars
    rw [Block.vars] at hvs
    have inside : Sits vars (p + Place.acting).pc (clauses.vars scope.names) :=
      (Sits.append.1 (Sits.cons.1 hvs).2).1
    exact clauses.render_scoped (p + .acting) _ p.action scope c hc inside h.within
  | .loop binding collection body, p, scope, c, h => by
    obtain ⟨-, -, -, hb, -, -⟩ := h.hosted.loop
    obtain ⟨-, fits, hbody⟩ := h.within
    have hvs := h.vars
    rw [Block.vars] at hvs
    obtain ⟨-, hvs⟩ := Sits.cons.1 (Sits.cons.1 hvs).2
    refine Nodes.scoped_iff.2 fun n hn => ?_
    obtain ⟨round, hround, hn⟩ := List.mem_flatten.1 hn
    refine Nodes.scoped_iff.1 (results_of_mapM (fun item c => ?_) _ _ round hround) n hn
    have names_eq : Scope.names (scope ++ binding.bind item) = scope.names ++ binding.names := by
      rw [Scope.names_append, fits.bind_names]
    rw [← names_eq] at hvs hbody
    have inside : Sits vars (p + (Place.acting + .one)).pc
        (Items.vars (Scope.names (scope ++ binding.bind item)) body) := (Sits.append.1 hvs).1
    exact Items.render_scoped body _ (scope ++ binding.bind item) c hb inside hbody

theorem Clauses.render_scoped : ∀ (clauses : Clauses) (p : Place) (stop : Nat)
    (action : ActionId) (scope : Scope) (c : Context), clauses.Hosted t.program p stop →
      Sits vars p.pc (clauses.vars scope.names) → clauses.Within scope.names →
      Nodes.Scoped t.program vars (clauses.render t action p scope c).1
  | .done, _, _, _, _, _, _, _, _ => trivial
  | .otherwise body, p, _, _, scope, c, h, hv, hw => Items.render_scoped body p scope c h hv hw
  | .clause test negate body rest, p, stop, action, scope, c, h, hv, hw => by
    obtain ⟨-, hb, -, hr⟩ := h.clause
    rw [Clauses.vars] at hv
    obtain ⟨hvb, hvs⟩ := Sits.append.1 (Sits.cons.1 hv).2
    have hvr := (Sits.append.1 hvs).2
    rw [List.length_replicate, Items.vars_length] at hvr
    rw [Clauses.render_clause]
    rcases t.test scope test negate action c with ⟨_ | _ | _, c⟩
    · trivial
    · exact rest.render_scoped (Clauses.next p body rest) stop action scope c hr
        (by simpa [Clauses.next, Place.add_pc, Nat.add_assoc] using hvr) hw.2.2
    · exact Items.render_scoped body (p + .one) scope c hb hvb hw.2.1

end

end

namespace Template

variable {t : Template} {vars : List (List String)}

/-! ## Updates -/

theorem traces_attributes (actions : List ActionId) : ∀ (bindings : List AttributeBinding)
    (e : Element), (∀ b ∈ bindings, Visit.Agrees t.program vars ⟨b.pc, b.scope⟩) →
      Traces (Visit.Agrees t.program vars) (t.updateAttributesIn actions bindings e)
        (t.updateAttributes actions bindings e)
  | [], e, _ => .pure _
  | b :: rest, e, h => by
    obtain ⟨hb, hr⟩ := List.forall_mem_cons.1 h
    rw [updateAttributes, updateAttributesIn, updateAttributesIn]
    split
    · rcases t.program.instrs[b.pc]? with _ | instr
      · exact .throw _
      · cases instr with
        | setAttributeExpr name expr action =>
          refine (Traces.visit hb _).bind fun value _ _ _ => ?_
          exact (traces_attributes actions rest _ hr).bind fun _ _ _ _ => .pure _
        | _ => exact .throw _
    · exact traces_attributes actions rest e hr

mutual

/-- Bringing a node up to date is watched. -/
theorem traces_node (actions : List ActionId) : ∀ n : Node, n.Scoped t.program vars →
    Traces (Visit.Agrees t.program vars) (t.updateNodeIn actions n) (t.updateNode actions n)
  | .text _, _ | .html _, _ => .pure _
  | .element e children, h => by
    rw [updateNode, updateNodeIn, updateNodeIn]
    refine (traces_attributes actions e.bindings e h.1).bind fun _ _ _ _ => ?_
    exact (traces_nodes actions children h.2).bind fun _ _ _ _ => .pure _
  | .block anchor children, ⟨⟨p, b, hp, hb⟩, hc⟩ => by
    rw [updateNode, updateNodeIn, updateNodeIn]
    split
    · refine (Traces.between _).bind fun _ _ _ _ => ?_
      rw [← hp]
      refine (traces_block anchor.scope b p t.fuel hb.hosted hb.vars hb.within).bind ?_
      exact fun _ _ _ _ => .pure _
    · exact (traces_nodes actions children hc).bind fun _ _ _ _ => .pure _

theorem traces_nodes (actions : List ActionId) : ∀ nodes : List Node,
    Nodes.Scoped t.program vars nodes →
      Traces (Visit.Agrees t.program vars) (t.updateNodesIn actions nodes)
        (t.updateNodes actions nodes)
  | [], _ => .pure _
  | n :: rest, h => by
    rw [updateNodes, updateNodesIn, updateNodesIn]
    refine (traces_node actions n h.1).bind fun _ _ _ _ => ?_
    exact (traces_nodes actions rest h.2).bind fun _ _ _ _ => .pure _

end

mutual

/-- A tree that was brought up to date remembers the variables still. -/
theorem updateNode_scoped (actions : List ActionId) : ∀ {n : Node} {c : Context},
    n.Anchored t.program → n.Scoped t.program vars →
      ∃ n' ran c', t.updateNode actions n c = (.ok (n', ran), c') ∧ n'.Scoped t.program vars
  | .text s, c, _, _ => ⟨.text s, [], c, rfl, trivial⟩
  | .html s, c, _, _ => ⟨.html s, [], c, rfl, trivial⟩
  | .element e children, c, ha, hs => by
    obtain ⟨e', ran, c₁, attributes, same⟩ := updateAttributes_ok actions e.bindings e c ha.1
    obtain ⟨children', more, c₂, inside, hc⟩ := updateNodes_scoped actions ha.2 hs.2
    refine ⟨_, _, _, updateNode_element attributes inside, ?_, hc⟩
    rw [same]
    exact hs.1
  | .block anchor children, c, ha, ⟨⟨p, b, hp, hb⟩, hs⟩ => by
    by_cases again : anchor.action ∈ actions
    · refine ⟨_, _, _, updateNode_again hb.hosted hp again children c, ?_⟩
      refine ⟨⟨p, b, ?_, ?_⟩, b.render_scoped p anchor.scope _ hb⟩
      · rw [b.render_anchor]
      · rw [b.render_anchor]
        exact hb
    · obtain ⟨children', ran, c', inside, hc⟩ := updateNodes_scoped actions ha.2 hs
      exact ⟨_, _, _, updateNode_block again inside, ⟨p, b, hp, hb⟩, hc⟩

theorem updateNodes_scoped (actions : List ActionId) : ∀ {nodes : List Node} {c : Context},
    Nodes.Anchored t.program nodes → Nodes.Scoped t.program vars nodes →
      ∃ nodes' ran c', t.updateNodes actions nodes c = (.ok (nodes', ran), c') ∧
        Nodes.Scoped t.program vars nodes'
  | [], c, _, _ => ⟨[], [], c, rfl, trivial⟩
  | n :: rest, c, ha, hs => by
    obtain ⟨n', ran, c₁, first, hn⟩ := updateNode_scoped actions (c := c) ha.1 hs.1
    obtain ⟨rest', more, c₂, others, hr⟩ := updateNodes_scoped actions (c := c₁) ha.2 hs.2
    exact ⟨_, _, _, updateNodes_cons first others, hn, hr⟩

end

theorem Rendered.scoped {items : List Item} (hl : t.program.LaidOut items)
    (hw : Items.Within [] items) {nodes : List Node} (h : t.Rendered nodes) :
    Nodes.Scoped t.program (Items.vars [] items) nodes := by
  induction h with
  | render c =>
    rw [render_eq hl]
    exact Items.render_scoped items .start [] (t.prepare c) hl.hosted (Sits.refl _) hw
  | @update nodes nodes' actions ran c c' rendered hu ih =>
    obtain ⟨nodes₁, ran₁, c₁, run, hn⟩ :=
      updateNodes_scoped actions (c := c) (rendered.anchored hl) ih
    cases hu.symm.trans run
    exact hn

end Template

/-- On a compiled template, the variables in scope at run time are those that the builder had in
scope. Whatever a template renders, in whatever context, and whatever parts of a tree of it are run
again: every instruction that is executed finds exactly the loop variables in scope, in their
order, that were in scope when it was appended, and every variable that it mentions is defined. -/
theorem Engine.build_scopes_agree {engine : Engine} {name : Option String} {source : String}
    {t : Template} (h : (engine.build name source).2 = .ok t) :
    let vars := compiledVars t.functions.contains t.source
    vars.length = t.program.instrs.size ∧
      (∀ c, ∃ visits, t.watchedRunAll (c, []) = ((t.runAll c).1, ((t.runAll c).2, visits)) ∧
        ∀ v ∈ visits, v.Agrees t.program vars) ∧
      ∀ nodes, t.Rendered nodes → ∀ actions c, ∃ visits,
        t.watchedNodes actions nodes (c, []) =
          ((t.updateNodes actions nodes c).1, ((t.updateNodes actions nodes c).2, visits)) ∧
        ∀ v ∈ visits, v.Agrees t.program vars := by
  obtain ⟨compiled, -⟩ := Engine.build_ok h
  obtain ⟨items, laidOut, within, vars_eq⟩ := compiledVars_eq compiled
  intro vars
  have vars_eq : vars = Items.vars [] items := vars_eq
  rw [vars_eq]
  refine ⟨?_, ?_, ?_⟩
  · rw [Items.vars_length, laidOut.size]
  · intro c
    exact Template.traces_runAll laidOut within c []
  · intro nodes rendered actions c
    exact Template.traces_nodes actions nodes (rendered.scoped laidOut within) c []

/-- A list of lists, where the inner loop has a conditional and a handler that keeps variables of
both loops. -/
theorem Engine.build_scopes_agree_nested :
    let source := "\x7b#each rows as row\x7d\x7b#each row as (x, i)\x7d<b onclick=\x7bpick(row, i)\x7d>\x7b#if x\x7d\x7bindex\x7d\x7b/if\x7d</b>\x7b/each\x7d\x7b/each\x7d"
    let inside := ["row", "index", "x", "i"]
    ∃ t vars, (Engine.new.build none source).2 = .ok t ∧
      vars = compiledVars t.functions.contains t.source ∧
      vars = [[], [], ["row", "index"], ["row", "index"]] ++ List.replicate 9 inside
        ++ [["row", "index"], ["row", "index"]] ∧
      (∀ c, ∃ visits, t.watchedRunAll (c, []) = ((t.runAll c).1, ((t.runAll c).2, visits)) ∧
        ∀ v ∈ visits, v.Agrees t.program vars) ∧
      ∀ nodes, t.Rendered nodes → ∀ actions c, ∃ visits,
        t.watchedNodes actions nodes (c, []) =
          ((t.updateNodes actions nodes c).1, ((t.updateNodes actions nodes c).2, visits)) ∧
        ∀ v ∈ visits, v.Agrees t.program vars := by
  intro source inside
  have compiles : (Engine.new.build none source).2.toOption.map
      (fun t => compiledVars t.functions.contains t.source) =
        some ([[], [], ["row", "index"], ["row", "index"]] ++ List.replicate 9 inside
          ++ [["row", "index"], ["row", "index"]]) := by decide +kernel
  obtain ⟨t, built, recorded⟩ := Option.map_eq_some_iff.1 compiles
  have built := ok_of_toOption built
  obtain ⟨-, renders, updates⟩ := Engine.build_scopes_agree built
  exact ⟨t, _, built, rfl, recorded, renders, updates⟩

end LiveTemplate
