/-
The rounds of a loop. A loop over a list or map runs its body once for each member, in order, and every
round finds the variables of the scope around the loop and those that the loop declares: the member, its
key and its position, by the number of the parameters and the kind of the collection. Each parameter is
found under its name unless the position, which comes along with a single parameter under a name of its
own, has the same name and hides it.
-/
import LiveTemplate.Proofs.Render.Capture
import LiveTemplate.Proofs.Render.Execution
import LiveTemplate.Tree.Html

namespace LiveTemplate

/-! ## Roles -/

/-- What a loop parameter stands for. -/
inductive LoopRole where
  | item
  | key
  | position
  | nothing
deriving Repr, DecidableEq

namespace LoopRole

/-- The role of a parameter by its position among so many, where the items have keys or not. -/
def of (keyed : Bool) : (count position : Nat) → LoopRole
  | 1, 0 => item
  | 2, 0 => if keyed then key else item
  | 2, 1 => if keyed then item else position
  | _, 0 => if keyed then key else position
  | _, 1 => item
  | _, 2 => position
  | _, _ => nothing

/-- What a role is for a member of a collection. -/
def value (role : LoopRole) (k : Option String) (v : Value) (i : Nat) : Value :=
  match role with
  | item => v
  | key => (k.map Value.text).getD .null
  | position => .int (Int64.ofNat i)
  | nothing => .null

/-- The variable of a parameter with a role. -/
def var (role : LoopRole) (name : String) (k : Option String) (v : Value) (i : Nat) : Var :=
  ⟨name, role.value k v i, role == .position⟩

end LoopRole

/-- The members of a list or map in order, in a map with their keys. -/
def Value.members? : Value → Option (List (Option String × Value))
  | .list _ items => some (items.map (none, ·))
  | .map _ entries => some (entries.map fun (k, v) => (some k, v))
  | _ => none

/-- A loop visits the members of a collection one after the other. -/
theorem loopItems?_of_members {v : Value} {members : List (Option String × Value)}
    (h : v.members? = some members) :
    loopItems? v = some (members.zipIdx.map fun ((k, v), i) => ⟨k, v, i⟩) := by
  unfold Value.members? at h
  split at h <;> cases h <;> simp [loopItems?, List.zipIdx_map]

/-! ## Variables -/

/-- Where all names in a scope are different, a variable of it is found under its name. -/
theorem Scope.find?_of_nodup {vars : Scope} {var : Var} (distinct : vars.names.Nodup)
    (h : var ∈ vars) : vars.find? var.name = some var := by
  obtain ⟨found, hf⟩ := Scope.find?_of_mem (List.mem_map_of_mem h)
  have named : found.name = var.name := by simpa using List.find?_some hf
  have mem : found ∈ vars := List.mem_reverse.1 (List.mem_of_find?_eq_some hf)
  rw [hf, List.inj_on_of_nodup_map distinct mem h named]

namespace LoopBinding

variable {b : LoopBinding} {item : LoopItem}

/-- Each parameter is bound in its role. -/
theorem mem_bind {j : Nat} {p : String} (h : b.params[j]? = some p) :
    (LoopRole.of item.key.isSome b.params.length j).var p item.key item.value item.position ∈
      b.bind item := by
  obtain ⟨params, indexParam, destructured⟩ := b
  obtain ⟨key, value, position⟩ := item
  unfold bind
  match params, j with
  | [], _ => cases h
  | [_], 0 =>
    cases h
    exact List.mem_cons_self
  | [_], _ + 1 => cases h
  | [_, _], 0 => cases h; cases key <;> exact List.mem_cons_self
  | [_, _], 1 => cases h; cases key <;> exact List.mem_cons_of_mem _ List.mem_cons_self
  | [_, _], _ + 2 => cases h
  | _ :: _ :: _ :: _, 0 => cases h; cases key <;> exact List.mem_cons_self
  | _ :: _ :: _ :: _, 1 => cases h; exact List.mem_cons_of_mem _ List.mem_cons_self
  | _ :: _ :: _ :: _, 2 =>
    cases h
    exact List.mem_cons_of_mem _ (List.mem_cons_of_mem _ List.mem_cons_self)
  | _ :: _ :: _ :: more, j + 3 =>
    have extra : p ∈ more := List.mem_of_getElem? h
    refine List.mem_cons_of_mem _ (List.mem_cons_of_mem _ (List.mem_cons_of_mem _ ?_))
    exact List.mem_map_of_mem extra

/-- Whether the index that comes along with a single parameter hides it, having its name. -/
def isHidden (b : LoopBinding) : Bool :=
  b.params == [Markup.implicitIndex] && !b.destructured

/-- The role in which a parameter is found in a round, by its position. -/
def role (b : LoopBinding) (keyed : Bool) (j : Nat) : LoopRole :=
  if b.isHidden then .position else .of keyed b.params.length j

/-- A loop header whose parameters have different names, and that brings an index along exactly with
a single parameter without brackets. -/
structure Distinct (b : LoopBinding) : Prop where
  params : b.params.Nodup
  index : b.indexParam =
    if !b.destructured && b.params.length == 1 then some Markup.implicitIndex else none

theorem Distinct.nodup_bind (h : b.Distinct) (visible : b.isHidden = false) (item : LoopItem) :
    (Scope.names (b.bind item)).Nodup := by
  rw [b.names_bind item]
  split
  next single =>
    refine List.nodup_append.2 ⟨h.params, by cases b.indexParam <;> simp, ?_⟩
    rintro p hp _ hq rfl
    have index := Option.mem_toList.1 hq
    rw [h.index] at index
    obtain ⟨q, hb⟩ := List.length_eq_one_iff.1 single
    rw [hb, List.mem_singleton] at hp
    subst hp
    by_cases bare : b.destructured = true
    · simp [bare] at index
    · simp only [bare, single, Bool.not_false, BEq.rfl, Bool.and_self, if_true] at index
      cases index
      simp [isHidden, hb, bare] at visible
  next => rw [List.append_nil]; exact h.params

/-- In a round, every parameter is found in its role. -/
theorem Distinct.find? (h : b.Distinct) {j : Nat} {p : String} (hp : b.params[j]? = some p)
    (scope : Scope) :
    Scope.find? (scope ++ b.bind item) p =
      some ((b.role item.key.isSome j).var p item.key item.value item.position) := by
  rw [Scope.find?_append]
  by_cases hidden : b.isHidden = true
  · -- the index is bound after the parameter, so it is found first
    obtain ⟨params, indexParam, destructured⟩ := b
    simp only [isHidden, Bool.and_eq_true, beq_iff_eq, Bool.not_eq_true'] at hidden
    obtain ⟨rfl, rfl⟩ := hidden
    obtain rfl : indexParam = some Markup.implicitIndex := h.index
    obtain ⟨rfl, rfl⟩ : j = 0 ∧ p = Markup.implicitIndex := by
      cases j with
      | zero => cases hp; exact ⟨rfl, rfl⟩
      | succ => cases hp
    rfl
  · have found := Scope.find?_of_nodup (h.nodup_bind (by simpa using hidden) item) (mem_bind hp)
    rw [show Scope.find? (b.bind item) p = _ from found, Option.some_or, role, if_neg hidden]

end LoopBinding

/-- The variables of a loop header are distinct if its parameters are. -/
theorem Markup.parseBinding_distinct {region : Region} {b : LoopBinding}
    (h : Markup.parseBinding region = .ok b) (distinct : b.params.Nodup) : b.Distinct := by
  refine ⟨distinct, ?_⟩
  unfold Markup.parseBinding at h
  obtain ⟨ts, -, h⟩ := results_of_bind h
  obtain ⟨params, -, h⟩ := results_of_bind h
  simp only at h
  by_cases hp : (params.isEmpty || ((Markup.unbracket ts).getD ts).length % 2 == 0) = true
  · rw [if_pos hp] at h
    cases h
  · rw [if_neg hp] at h
    cases h
    rfl

/-! ## Blocks of a program -/

namespace Program

variable {program : Program}

/-- Whatever opens a block among some instructions begins the code of a block. -/
def OpensOn (program : Program) (i j : Nat) : Prop :=
  ∀ pc instr, i ≤ pc → pc < j → program.instrs[pc]? = some instr → instr.opensBlock = true →
    ∃ (b : Block) (p : Place), p.pc = pc ∧ b.Hosted program p

theorem OpensOn.append {i j k : Nat} (h : program.OpensOn i j) (h' : program.OpensOn j k) :
    program.OpensOn i k := by
  intro pc instr hi hk found opens
  by_cases hj : pc < j
  · exact h pc instr hi hj found opens
  · exact h' pc instr (Nat.not_lt.1 hj) hk found opens

theorem opensOn_one {i : Nat} {instr : Instr} (hi : program.instrs[i]? = some instr)
    (plain : instr.opensBlock = false) : program.OpensOn i (i + 1) := by
  intro pc instr' hle hlt found opens
  obtain rfl : pc = i := by omega
  cases hi.symm.trans found
  rw [plain] at opens
  cases opens

theorem opensOn_head {b : Block} {p : Place} (h : b.Hosted program p) :
    program.OpensOn p.pc (p.pc + 1) := by
  intro pc _ hle hlt _ _
  exact ⟨b, p, by omega, h⟩

theorem opensOn_features : ∀ (features : List Feature) (p : Place),
    Features.Hosted program p features → program.OpensOn p.pc (p + Features.room features).pc
  | [], _, _ => fun _ _ hi hj => absurd hj (Nat.not_lt.2 hi)
  | f :: rest, p, h => by
    obtain ⟨hi, -, hr⟩ := h.cons
    have others := opensOn_features rest (p + f.room) hr
    have one : (p + f.room).pc = p.pc + 1 := by cases f <;> rfl
    rw [one] at others
    rw [Features.room, ← Place.add_assoc]
    exact (opensOn_one hi (by cases f <;> rfl)).append others

mutual

theorem opensOn_item : ∀ (i : Item) (p : Place), i.Hosted program p →
    program.OpensOn p.pc (p + i.room).pc
  | .text s, p, h => by
    unfold Item.Hosted at h
    rw [Item.code] at h
    exact opensOn_one h.cons.1 rfl
  | .element tag key features children, p, h => by
    obtain ⟨hi, hf, hc, ha⟩ := h.element
    have hroom : (p + (Item.element tag key features children).room).pc =
        (p + (.one + Features.room features) + Items.room children).pc + 1 := by
      simp only [Item.room, Place.add_pc, Place.one_pc]
      omega
    have featured := opensOn_features features (p + .one) hf
    rw [Place.add_assoc] at featured
    rw [hroom]
    exact ((opensOn_one hi rfl).append featured).append
      ((opensOn_items children _ hc).append (opensOn_one ha rfl))
  | .block b, p, h => opensOn_block b p h

theorem opensOn_items : ∀ (items : List Item) (p : Place), Items.Hosted program p items →
    program.OpensOn p.pc (p + Items.room items).pc
  | [], _, _ => fun _ _ hi hj => absurd hj (Nat.not_lt.2 hi)
  | i :: rest, p, h => by
    obtain ⟨hi, hr⟩ := h.cons
    have others := opensOn_items rest (p + i.room) hr
    rw [Place.add_assoc] at others
    exact (opensOn_item i p hi).append others

theorem opensOn_block : ∀ (b : Block) (p : Place), b.Hosted program p →
    program.OpensOn p.pc (p + b.room).pc
  | .emit e mode, p, h => opensOn_head h
  | .chain clauses, p, h => by
    obtain ⟨-, -, hc, he⟩ := h.chain
    have hs : (Block.chain clauses).stop p = (p + .acting + clauses.room).pc := by
      rw [Block.stop, Place.add_assoc]
    have inside := opensOn_clauses clauses (p + .acting) _ hc hs
    rw [← (Block.chain clauses).stop_succ p]
    exact (opensOn_head h).append (inside.append (opensOn_one he rfl))
  | .loop binding collection body, p, h => by
    obtain ⟨-, -, hn, hb, hj, he⟩ := h.loop
    have hs : (Block.loop binding collection body).stop p =
        (p + (.acting + .one) + Items.room body).pc + 1 := by
      simp only [Block.stop, Place.add_pc, Place.acting_pc, Place.one_pc]
      omega
    have inside := (opensOn_items body _ hb).append (opensOn_one hj rfl)
    rw [← hs] at inside
    rw [← (Block.loop binding collection body).stop_succ p]
    exact (opensOn_head h).append ((opensOn_one hn rfl).append (inside.append (opensOn_one he rfl)))

theorem opensOn_clauses : ∀ (clauses : Clauses) (p : Place) (stop : Nat),
    clauses.Hosted program p stop → stop = (p + clauses.room).pc → program.OpensOn p.pc stop
  | .done, p, stop, _, hs => fun _ _ hi hj => absurd hj (by rw [hs]; exact Nat.not_lt.2 hi)
  | .otherwise body, p, stop, h, hs => by
    rw [hs]
    exact opensOn_items body p h
  | .clause test negate body rest, p, stop, h, hs => by
    obtain ⟨hi, hb, hx, hr⟩ := h.clause
    have hnext : (Clauses.next p body rest).pc =
        (p + .one + Items.room body).pc + rest.exitRoom.pc := by
      simp only [Clauses.next, Place.add_pc, Place.one_pc]
      omega
    have others := opensOn_clauses rest (Clauses.next p body rest) stop hr (by
      simp only [hs, Clauses.room, Clauses.next, Place.add_pc, Place.one_pc]
      omega)
    refine (opensOn_one hi rfl).append ((opensOn_items body (p + .one) hb).append ?_)
    -- a jump to the end stands between two clauses, and none behind the last one
    by_cases hd : rest.isDone = true
    · rwa [hnext, Clauses.exitRoom, if_pos hd] at others
    · rw [hnext, Clauses.exitRoom, if_neg hd] at others
      exact (opensOn_one (hx (by simpa using hd)) rfl).append others

end

/-- A loop of a program that is laid out as an outline is a loop of the outline. -/
theorem LaidOut.loop {items : List Item} (h : program.LaidOut items) {pc stop : Nat}
    {action : ActionId} {b : LoopBinding} {collection : Expr}
    (hi : program.instrs[pc]? = some (.openLoop action b collection stop)) :
    ∃ (body : List Item) (p : Place), (Block.loop b collection body).Hosted program p ∧
      p.pc = pc ∧ p.action = action ∧ (Block.loop b collection body).stop p = stop := by
  have hlt := (Array.getElem?_eq_some_iff.1 hi).1
  rw [h.size] at hlt
  obtain ⟨block, p, rfl, hosted⟩ := opensOn_items items .start h.hosted pc _ (Nat.zero_le _)
    (by rw [Place.start_add]; exact hlt) hi rfl
  cases block with
  | emit e mode => cases hosted.emit.1.symm.trans hi
  | chain clauses => cases hosted.chain.1.symm.trans hi
  | loop b' collection' body =>
    cases hosted.loop.1.symm.trans hi
    exact ⟨body, p, hosted, rfl, rfl, rfl⟩

end Program

/-! ## Loops -/

/-- The scopes of the rounds of a loop over members. -/
def LoopBinding.rounds (b : LoopBinding) (scope : Scope)
    (members : List (Option String × Value)) : List Scope :=
  members.zipIdx.map fun ((k, v), i) => scope ++ b.bind ⟨k, v, i⟩

theorem LoopBinding.rounds_getElem? (b : LoopBinding) (scope : Scope)
    {members : List (Option String × Value)} {i : Nat} {k : Option String} {v : Value}
    (h : members[i]? = some (k, v)) :
    (b.rounds scope members)[i]? = some (scope ++ b.bind ⟨k, v, i⟩) := by
  rw [rounds, List.getElem?_map, List.getElem?_zipIdx, h]
  simp

namespace Template

variable {t : Template} {scope : Scope} {c c' : Context}

/-- What the instructions of the loop at a position do in a round, as a computation in the scope of
the round. -/
def RoundDoes (t : Template) (pc stop : Nat) (body : Scope → StateM Context (List Node)) : Prop :=
  ∀ round fuel out c, stop - pc ≤ fuel →
    t.run fuel (.loop (pc + 1)) round stop (pc + 2) out c =
      (.ok (out.extend (body round c).1), (body round c).2)

theorem items_of_members {e : Expr} {action : ActionId} {v : Value}
    {members : List (Option String × Value)} (evaluates : Attempt.eval t scope e c = (.ok v, c'))
    (hv : v.members? = some members) :
    t.items scope e action c = (members.zipIdx.map fun ((k, v), i) => ⟨k, v, i⟩, c') := by
  have collected : t.collect scope e c =
      (.ok (members.zipIdx.map fun ((k, v), i) => ⟨k, v, i⟩), c') := by
    unfold collect
    rw [stateful_bind_ok evaluates, loopItems?_of_members hv]
    rfl
  rw [items, Attempt.recover, collected]

/-- The round of a hosted loop renders the body. -/
theorem roundDoes_loop {b : LoopBinding} {collection : Expr} {body : List Item} {p : Place}
    (h : (Block.loop b collection body).Hosted t.program p) :
    t.RoundDoes p.pc ((Block.loop b collection body).stop p) fun round =>
      Items.render t (p + (.acting + .one)) round body := by
  intro round fuel out c hf
  obtain ⟨-, -, -, hb, hj, -⟩ := h.loop
  have hs : (Block.loop b collection body).stop p =
      (p + (.acting + .one) + Items.room body).pc + 1 := by
    simp only [Block.stop, Place.add_pc, Place.acting_pc, Place.one_pc]
    omega
  rw [hs] at hf ⊢
  have body := leads_items (.loop (p.pc + 1)) round _ body (p + (.acting + .one)) out c hb
    (Nat.le_succ _)
  refine body.round (Nat.lt_succ_self _) hj ?_
  simp only [Place.add_pc, Place.acting_pc, Place.one_pc] at hf ⊢
  omega

/-- The block of a hosted loop has the nodes of its rounds, one round after the other. -/
theorem runBlock_loop {b : LoopBinding} {collection : Expr} {body : List Item} {p : Place}
    (h : (Block.loop b collection body).Hosted t.program p) {v : Value}
    {members : List (Option String × Value)}
    (evaluates : Attempt.eval t scope collection c = (.ok v, c'))
    (hv : v.members? = some members) {fuel : Nat}
    (hf : (Block.loop b collection body).stop p - p.pc < fuel) :
    let nodes := (b.rounds scope members).mapM
      (fun round => Items.render t (p + (.acting + .one)) round body) c'
    t.runBlock fuel p.pc scope c =
      (.ok (⟨p.action, p.pc, (Block.loop b collection body).stop p, scope⟩, nodes.1.flatten),
        nodes.2) := by
  have room : (Block.loop b collection body).room.pc ≤ fuel := by
    have := (Block.loop b collection body).stop_succ p
    rw [Place.add_pc] at this
    omega
  let round (item : LoopItem) : StateM Context (List Node) :=
    Items.render t (p + (.acting + .one)) (scope ++ b.bind item) body
  have rendered : (Block.loop b collection body).render t p scope c =
      let (items, c) := t.items scope collection p.action c
      let (rounds, c) := items.mapM round c
      ((⟨p.action, p.pc, (Block.loop b collection body).stop p, scope⟩, rounds.flatten), c) := rfl
  rw [runBlock_eq scope _ p fuel c h room, rendered, items_of_members evaluates hv,
    LoopBinding.rounds, List.mapM_map]
  simp only [List.mapM_map]
  rfl

end Template

/-- A loop of a template whose collection is a list or map has one round for each member, in order.
In a round, every parameter is found in its role and every name that the loop does not declare as
around the loop. The run goes on behind the loop with the scope it came with. -/
theorem Engine.loop_rounds {engine : Engine} {name : Option String} {source : String} {t : Template}
    (built : (engine.build name source).2 = .ok t) {region : Region} {b : LoopBinding}
    (header : Markup.parseBinding region = .ok b) (distinct : b.params.Nodup)
    {pc stop : Nat} {action : ActionId} {collection : Expr}
    (opens : t.program.instrs[pc]? = some (.openLoop action b collection stop))
    {scope : Scope} {c c' : Context} {v : Value} {members : List (Option String × Value)}
    (evaluates : Attempt.eval t scope collection c = (.ok v, c'))
    (collects : v.members? = some members) :
    ∃ (rounds : List Scope) (body : Scope → StateM Context (List Node)),
      rounds.length = members.length ∧
      (∀ (i : Nat) (k : Option String) (v : Value), members[i]? = some (k, v) →
        ∃ round, rounds[i]? = some round ∧
          (∀ (j : Nat) (p : String), b.params[j]? = some p →
            round.find? p = some ((b.role k.isSome j).var p k v i)) ∧
          ∀ n ∉ b.names, round.find? n = scope.find? n) ∧
      t.RoundDoes pc stop body ∧
      ∀ fuel, stop - pc < fuel →
        let nodes := rounds.mapM body c'
        t.runBlock fuel pc scope c =
            (.ok (⟨action, pc, stop, scope⟩, nodes.1.flatten), nodes.2) ∧
          ∀ frame last out, pc < last →
            t.run (fuel + 1) frame scope last pc out c =
              t.run fuel frame scope last (stop + 1)
                (out.push (.block ⟨action, pc, stop, scope⟩ nodes.1.flatten)) nodes.2 := by
  obtain ⟨compiles, -⟩ := Engine.build_ok built
  obtain ⟨items, -, laidOut⟩ := (compile_refines _ _).ok compiles
  obtain ⟨body, p, hosted, rfl, rfl, rfl⟩ := laidOut.loop opens
  have declared := Markup.parseBinding_distinct header distinct
  refine ⟨b.rounds scope members, _, by simp [LoopBinding.rounds], ?_,
    Template.roundDoes_loop hosted, ?_⟩
  · intro i k v member
    refine ⟨_, b.rounds_getElem? scope member, ?_, ?_⟩
    · intro j q hq
      exact declared.find? hq scope
    · intro n hn
      rw [Scope.find?_append, LoopBinding.find?_bind hn, Option.none_or]
  · intro fuel hf
    have block := Template.runBlock_loop hosted evaluates collects hf
    refine ⟨block, fun frame last out inside => ?_⟩
    rw [Template.run_block inside opens rfl, stateful_bind_ok block]

/-- The binding of a loop over a field, the name of the field and the number and end of the loop. -/
def Instr.loopOver? : Instr → Option (LoopBinding × String × ActionId × Nat)
  | .openLoop action b (.root _ (.field f)) stop => some (b, f, action, stop)
  | _ => none

/-- A loop over a map with one parameter more than there are roles. -/
theorem Engine.loop_rounds_map :
    let source := "\x7b#each xs as (k, x, i, z)\x7d\x7bx\x7d\x7b/each\x7d"
    let context : Context :=
      { state := ⟨0, [("xs", .map 1 [("a", .bool true), ("b", .bool false)])], [], ⟨2⟩⟩
        props := .map 3 []
        methods := []
        handlers := .withCapacity 16
        dependencies := none
        diagnostics := [] }
    ∃ t, (Engine.new.build none source).2 = .ok t ∧
      ∃ (rounds : List Scope) (body : Scope → StateM Context (List Node)),
        rounds.length = 2 ∧
        (∃ round, rounds[1]? = some round ∧ round.find? "k" = some ⟨"k", .text "b", false⟩ ∧
          round.find? "x" = some ⟨"x", .bool false, false⟩ ∧
          round.find? "i" = some ⟨"i", .int 1, true⟩ ∧
          round.find? "z" = some ⟨"z", .null, false⟩ ∧ round.find? "y" = none) ∧
        t.RoundDoes 0 4 body ∧
        let nodes := rounds.mapM body context
        t.runBlock 5 0 [] context = (.ok (⟨0, 0, 4, []⟩, nodes.1.flatten), nodes.2) ∧
          t.run 6 .page [] 5 0 .empty context =
            t.run 5 .page [] 5 5 (Output.empty.push (.block ⟨0, 0, 4, []⟩ nodes.1.flatten))
              nodes.2 := by
  intro source context
  let b : LoopBinding := ⟨["k", "x", "i", "z"], none, true⟩
  have header : Markup.parseBinding ⟨13, "(k, x, i, z)".toList⟩ = .ok b := by decide +kernel
  have opens : (Engine.new.build none source).2.toOption.bind (fun t =>
      t.program.instrs[0]?.bind Instr.loopOver?) = some (b, "xs", 0, 4) := by decide +kernel
  rcases h : (Engine.new.build none source).2 with fault | t
  · rw [h] at opens
    cases opens
  rw [h] at opens
  obtain ⟨_, ⟨⟩, opens⟩ := Option.bind_eq_some_iff.1 opens
  obtain ⟨instr, hi, opens⟩ := Option.bind_eq_some_iff.1 opens
  unfold Instr.loopOver? at opens
  split at opens
  next action b' span f stop =>
    cases opens
    have evaluates : Attempt.eval t [] (.root span (.field "xs")) context =
        (.ok (.map 1 [("a", .bool true), ("b", .bool false)]), context) := rfl
    obtain ⟨rounds, body, length, roles, does, run⟩ :=
      Engine.loop_rounds h header (by decide) hi evaluates rfl
    obtain ⟨round, hr, param, others⟩ := roles 1 (some "b") (.bool false) rfl
    obtain ⟨block, behind⟩ := run 5 (by decide)
    refine ⟨t, rfl, rounds, body, length, ⟨round, hr, param 0 "k" rfl, param 1 "x" rfl,
      param 2 "i" rfl, param 3 "z" rfl, others "y" (by decide)⟩, does, block, ?_⟩
    exact behind .page 5 .empty (by decide)
  next => cases opens

/-- The index that comes along with a single parameter hides a parameter of its name: the page shows
the positions and not the items. -/
theorem Engine.loop_index_hidden :
    let source := "\x7b#each xs as index\x7d\x7bindex\x7d\x7b/each\x7d"
    let context : Context :=
      { state := ⟨0, [("xs", .list 1 [.text "a", .text "b"])], [], ⟨2⟩⟩
        props := .map 3 []
        methods := []
        handlers := .withCapacity 16
        dependencies := none
        diagnostics := [] }
    ∃ b t, Markup.parseBinding ⟨13, "index".toList⟩ = .ok b ∧ b.params = ["index"] ∧
      b.params.Nodup ∧ (Engine.new.build none source).2 = .ok t ∧
      (t.program.instrs[0]?.bind Instr.loopOver?).map Prod.fst = some b ∧
      (∀ scope : Scope, Scope.find? (scope ++ b.bind ⟨none, .text "a", 0⟩) "index" =
        some ⟨"index", .int 0, true⟩) ∧
      toHtmlAll (t.render context).1 = "01" := by
  intro source context
  let b : LoopBinding := ⟨["index"], some "index", false⟩
  have facts : (Engine.new.build none source).2.toOption.map (fun t =>
      ((t.program.instrs[0]?.bind Instr.loopOver?).map Prod.fst,
        toHtmlAll (t.render context).1)) = some (some b, "01") := by decide +kernel
  rcases h : (Engine.new.build none source).2 with fault | t
  · rw [h] at facts
    cases facts
  rw [h] at facts
  obtain ⟨opens, html⟩ := Prod.mk.inj (Option.some.inj facts)
  refine ⟨b, t, by decide +kernel, rfl, by decide, rfl, opens, fun scope => ?_, html⟩
  rw [Scope.find?_append]
  rfl

end LiveTemplate
