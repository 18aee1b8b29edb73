/-
Captured items are the items of the state. A handler in a loop over a field keeps the item of its
round, with its identity, so that a method can find the item in the list of the state. Writes that
succeed keep this up: those of the field run the loop again, and all others leave the field as it
is. A write that fails does not note a change; as long as it does not lead below an item of the
field, it leaves the items as they are. One that leads below an item marks collections on its way
afresh before it fails, and then a captured item is another collection than the one in the state,
until the field is written again.
-/
import LiveTemplate.Proofs.Render.Capture

namespace LiveTemplate

/-! ## Writes -/

/-- Whether a path leads below an item of a field. -/
def leadsBelow (field path : String) : Bool :=
  match State.segments path with
  | first :: _ :: _ :: _ => first == field
  | _ => false

namespace State

variable {field path : String} {new : Value} {s : State}

/-- A write of a last segment that fails leaves the value as it is. -/
theorem write_last_failed (path : String) (new : Value) : ∀ (rest : List String) (v : Value)
    (n : Supply), rest.length ≤ 1 → (write path new rest v n).1.2 ≠ none →
      (write path new rest v n).1.1 = v
  | [], _, _, _, h => absurd rfl h
  | [segment], .map mark entries, n, _, h => absurd rfl h
  | [segment], .list mark items, n, _, h => by
    rw [write] at h ⊢
    rcases found : (position? segment).bind fun i => items[i]?.map (i, ·) with _ | ⟨i, child⟩
    · rfl
    · rw [found] at h
      exact absurd rfl h
  | [_], .null, _, _, _ | [_], .bool _, _, _, _ | [_], .int _, _, _, _ | [_], .float _, _, _, _
  | [_], .text _, _, _, _ => rfl
  | _ :: _ :: _, _, _, hr, _ => by simp at hr

/-- A write that fails and does not lead below an item of a field leaves the field as it is. -/
theorem set_failed_get? {e : Error} (h : (set path new s).1 = .error e)
    (hb : leadsBelow field path = false) :
    (set path new s).2.entries.get? field = s.entries.get? field := by
  unfold leadsBelow at hb
  rcases hp : segments path with _ | ⟨first, rest⟩
  · unfold set
    rw [hp]
  by_cases hs : (first :: rest).any String.isEmpty = true
  · unfold set
    rw [hp]
    dsimp only
    rw [if_pos hs]
  rw [hp] at hb
  obtain ⟨mark, child, failure, supply, hw, eq⟩ := set_eq new s hp (Bool.eq_false_iff.2 hs)
  rw [eq] at h ⊢
  rcases failure with _ | cause
  · cases h
  -- What was written is what a write of the other segments makes of what was found.
  let below := descend (s.entries.get? first) rest ⟨s.supply.next + 1⟩
  let written := write path new rest below.1 below.2
  have parts : (Value.map s.supply.next (s.entries.insert first written.1.1), written.1.2) =
      (Value.map mark (s.entries.insert first child), some cause) := congrArg Prod.fst hw
  obtain ⟨same, failure⟩ := Prod.mk.inj parts
  injection same with _ same
  show (s.entries.insert first child).get? field = _
  rw [← same, Entries.get?_insert]
  split
  case isFalse => rfl
  case isTrue at_field =>
    subst at_field
    have failed : written.1.2 ≠ none := by rw [failure]; exact Option.some_ne_none cause
    have found : s.entries.get? field = some below.1 := descend_found failed
    have short : rest.length ≤ 1 := by
      rcases rest with _ | ⟨second, _ | ⟨third, more⟩⟩
      · simp
      · simp
      · simp at hb
    rw [found]
    exact congrArg some (write_last_failed path new rest below.1 below.2 short failed)

end State

/-! ## Components -/

/-- A variable of a loop stands for the item, where the loop is over a list. -/
def LoopBinding.NamesItem (b : LoopBinding) (x : String) : Prop :=
  ∀ item : LoopItem, item.key = none → Scope.Gives (b.bind item) x item.value

namespace Component

/-- The component after writes, one after the other, also those that failed. -/
def setAll (c : Component) (sets : List (String × Value)) : Component :=
  sets.foldl (fun c s => (c.set s.1 s.2).2) c

/-- Whether the captured items of a field can be relied on after a write, given whether they could
before: a write of the field that succeeds makes them anew, and one that fails below an item spoils
them. -/
def reliable (field : String) (before : Bool) (c : Component) (path : String) (v : Value) : Bool :=
  match (c.set path v).1 with
  | .ok _ => before || (State.segments path).head? == some field
  | .error _ => before && !leadsBelow field path

/-- Whether the captured items of a field can be relied on after writes. -/
def reliableAfter (field : String) : Bool → Component → List (String × Value) → Bool
  | before, _, [] => before
  | before, c, (path, v) :: rest =>
    reliableAfter field (reliable field before c path v) (c.set path v).2 rest

/-- A component with no changes noted whose tree was rendered by a template and, if this can be
relied on, shows what a field holds. -/
structure Mirrors (t : Template) (field : String) (reliable : Bool) (c : Component) : Prop where
  template : c.template = t
  clean : c.context.state.dirty = []
  ready : t.Ready c.context
  anchored : Nodes.Anchored t.program c.tree
  current : Nodes.Current t.program c.context.handlers field
    (if reliable then c.context.state.entries.get? field else none) c.tree

variable {t : Template} {items : List Item} {field : String} {c : Component} {before : Bool}

theorem mirrors_new (hl : t.program.LaidOut items) {context : Context} (hr : t.OnlyReads context) :
    (new t context).Mirrors t field true := by
  have ready : t.Ready (t.prepare context) := by
    refine ⟨hr, ?_⟩
    intro e he
    exact absurd (List.mem_of_mem_drop he) List.not_mem_nil
  have renders := Items.renders field items .start [] (t.prepare context) hl.hosted ready
  rw [← Template.render_eq hl] at renders
  have after := ready.later renders.later
  obtain ⟨later, -, current⟩ := renders
  refine ⟨rfl, rfl, ⟨after.reads, after.issued⟩,
    Template.Rendered.anchored hl (.render context), ?_⟩
  show Nodes.Current t.program (t.render context).2.handlers field
    ((t.render context).2.state.entries.get? field) (t.render context).1
  rw [later.get? field]
  exact current

theorem reruns_of_dependencies (hd : t.dependencies = .ofActions t.program.actions.toList)
    {changed : List String} (hf : field ∈ changed) :
    t.program.Reruns field (t.dependencies.actionsFor changed) := by
  intro p binding collection body hosted isField
  obtain ⟨-, reads, -⟩ := hosted.loop
  have field_read : field ∈ collection.reads.fields := by
    unfold Expr.IsField at isField
    split at isField
    · subst isField
      exact List.mem_singleton.2 rfl
    · subst isField
      exact List.mem_singleton.2 rfl
    · cases isField
  by_contra unconcerned
  rw [hd] at unconcerned
  exact (Program.reads_unchanged reads (List.ne_nil_of_mem hf) unconcerned).2 field field_read hf

/-- A write keeps up what can be relied on. -/
theorem Mirrors.set (hd : t.dependencies = .ofActions t.program.actions.toList)
    (h : c.Mirrors t field before) (path : String) (v : Value) :
    (c.set path v).2.Mirrors t field (reliable field before c path v) := by
  obtain ⟨template, context, tree⟩ := c
  obtain rfl : template = t := h.template
  unfold reliable Component.set
  rcases hs : State.set path v context.state with ⟨e | ⟨⟩, state⟩
  · -- The write failed: the tree stays, and so do the items unless the path leads below one.
    have failed : (State.set path v context.state).1 = .error e := by rw [hs]
    have dirty := (State.set_failed failed).1
    have fields : leadsBelow field path = false →
        state.entries.get? field = context.state.entries.get? field := by
      intro hb
      have same := State.set_failed_get? failed hb
      rwa [hs] at same
    rw [hs] at dirty
    refine ⟨rfl, dirty.trans h.clean, ⟨h.ready.reads, h.ready.issued⟩, h.anchored, ?_⟩
    dsimp only
    cases hb : leadsBelow field path with
    | true =>
      rw [Bool.not_true, Bool.and_false]
      exact h.current.weaken nofun
    | false =>
      rw [Bool.not_false, Bool.and_true, fields hb]
      exact h.current
  · have succeeded : (State.set path v context.state).1 = .ok () := by rw [hs]
    obtain ⟨first, rest, hp, dirty, others⟩ := State.set_ok succeeded
    rw [hs] at dirty others
    have noted : state.dirty = [first] := by
      rw [dirty, h.clean]
      rfl
    let start : Context := { context with state := state.takeDirty.2 }
    have ready : template.Ready start := ⟨h.ready.reads, h.ready.issued⟩
    let reliable' := before || (State.segments path).head? == some field
    -- Either the field was written, and its loops run again, or it holds what it held.
    have shown : ∀ w, (if reliable' then state.entries.get? field else none) = some w →
        start.state.entries.get? field = some w ∧
          ((if before then context.state.entries.get? field else none) = some w ∨
            template.program.Reruns field (template.dependencies.actionsFor state.dirty)) := by
      intro w hw
      cases hr : reliable' with
      | false =>
        rw [hr] at hw
        cases hw
      | true =>
        rw [hr] at hw
        refine ⟨hw, ?_⟩
        by_cases hf : field = first
        · right
          subst hf
          exact reruns_of_dependencies hd (by rw [noted]; exact List.mem_singleton.2 rfl)
        · left
          have still : before = true := by
            simpa [reliable', hp, Ne.symm hf] using hr
          rw [still, if_pos rfl, ← others field hf]
          exact hw
    obtain ⟨tree', ran, context', run, later, -, current⟩ := Template.updateNodes_current
      (template.dependencies.actionsFor state.dirty) tree start h.anchored ready h.current shown
    obtain ⟨tree₁, ran₁, context₁, run₁, anchored⟩ := Template.updateNodes_ok
      (template.dependencies.actionsFor state.dirty) tree start h.anchored
    cases run.symm.trans run₁
    have flushed : (flush ⟨template, { context with state }, tree⟩).2 =
        ⟨template, context', tree'⟩ := flush_of_run (by rw [noted]; simp) run
    show Mirrors template field reliable' (flush ⟨template, { context with state }, tree⟩).2
    rw [flushed]
    obtain ⟨supply, hsupply⟩ := later.keeps.state
    refine ⟨rfl, ?_, ready.later later, anchored, ?_⟩
    · show context'.state.dirty = []
      rw [hsupply]
      rfl
    · show Nodes.Current template.program context'.handlers field
        (if reliable' then context'.state.entries.get? field else none) tree'
      rw [later.get? field]
      exact current

theorem Mirrors.setAll (hd : t.dependencies = .ofActions t.program.actions.toList) :
    ∀ (sets : List (String × Value)) {before : Bool} {c : Component}, c.Mirrors t field before →
      (c.setAll sets).Mirrors t field (reliableAfter field before c sets)
  | [], _, _, h => h
  | (path, v) :: rest, _, _, h => Mirrors.setAll hd rest (h.set hd path v)

end Component

theorem forall₂_getElem? {α β : Type} {R : α → β → Prop} : ∀ {xs : List α} {ys : List β} {i : Nat}
    {x : α} {y : β}, List.Forall₂ R xs ys → xs[i]? = some x → ys[i]? = some y → R x y
  | _ :: _, _ :: _, 0, _, _, .cons h _, hx, hy => by
    cases hx
    cases hy
    exact h
  | _ :: _, _ :: _, _ + 1, _, _, .cons _ h, hx, hy => forall₂_getElem? h hx hy

theorem forall₂_exists_of_mem {α β : Type} {R : α → β → Prop} : ∀ {xs : List α} {ys : List β}
    {y : β}, List.Forall₂ R xs ys → y ∈ ys → ∃ x ∈ xs, R x y
  | _, _, _, .cons h others, hy => by
    rcases List.mem_cons.1 hy with rfl | hy
    · exact ⟨_, List.mem_cons_self, h⟩
    · obtain ⟨x, hx, hr⟩ := forall₂_exists_of_mem others hy
      exact ⟨x, List.mem_cons_of_mem _ hx, hr⟩

theorem Registry.Captures.get? {r : Registry CapturedHandler} {x : String} {v : Value}
    {token : Registry.Token} (h : r.Captures x v token) {captured : CapturedHandler}
    (hg : r.get? token = some captured) (hx : x ∈ captured.source.locals) :
    captured.locals.lookup x = some v := by
  obtain ⟨e, found, rfl⟩ := Option.map_eq_some_iff.1 hg
  have token_eq : e.token = token := by
    have := List.find?_some found
    simpa using this
  exact h.2 e (List.mem_of_find?_eq_some found) token_eq hx

/-- Captured items stay identical to those of the state. Take a template that compiles and whose
expressions only read the state while it renders, and write to a component of it as often as you
like, where writes may fail. Then no change is noted, and every loop over a field that holds a list
has one round for each item. As long as no write has failed below an item of the field since the
field was last written, what a live handler of a round has captured in the variable of the item is
the item that the list in the state has now, with the same identity, unless the handler is inside
of another loop that binds the variable again. -/
theorem Component.captured_items_current {engine : Engine} {name : Option String} {source : String}
    {t : Template} (h : (engine.build name source).2 = .ok t) {context : Context}
    (reads : t.OnlyReads context) {field : String} {sets : List (String × Value)}
    (reliable : Component.reliableAfter field true (Component.new t context) sets = true) :
    let c := (Component.new t context).setAll sets
    c.context.state.dirty = [] ∧
      ∀ mark items, c.context.state.entries.get? field = some (.list mark items) →
        ∀ block ∈ blocksAll c.tree, ∀ binding, t.program.LoopsOver field block.1.start binding →
          ∃ (rounds : List (List Node)) (n : Nat),
            block.2 = rounds.flatten ∧ rounds.length = items.length ∧
            (∀ round ∈ rounds, round.length = n) ∧
            ∀ (i : Nat) (item : Value) (round : List Node),
              items[i]? = some item → rounds[i]? = some round →
                ∀ x, binding.NamesItem x → ∀ token ∈ Nodes.ownTokens t.program x round,
                  ∀ captured, c.context.handlers.get? token = some captured →
                    x ∈ captured.source.locals → captured.locals.lookup x = some item := by
  intro c
  obtain ⟨compiled, dependencies⟩ := Engine.build_ok h
  obtain ⟨outline, -, laidOut⟩ := (compile_refines t.functions.contains t.source).ok compiled
  have mirrors : c.Mirrors t field true :=
    reliable ▸ (Component.mirrors_new laidOut reads).setAll dependencies sets
  refine ⟨mirrors.clean, ?_⟩
  intro mark items held block hb binding loops
  obtain ⟨rounds, n, flat, each⟩ := (mirrors.current block hb).2 _ held binding loops
  have visited : (loopItems? (.list mark items)).getD [] =
      items.zipIdx.map fun p => (⟨none, p.1, p.2⟩ : LoopItem) := rfl
  rw [visited] at each
  refine ⟨rounds, n, flat, ?_, ?_, ?_⟩
  · have lengths := each.length_eq
    rw [List.length_map, List.length_zipIdx] at lengths
    exact lengths.symm
  · intro round hr
    obtain ⟨item, -, hi⟩ := forall₂_exists_of_mem each hr
    exact hi.1
  · intro i item round hitem hround x hx token ht captured hg hl
    have here : (items.zipIdx.map fun p => (⟨none, p.1, p.2⟩ : LoopItem))[i]? =
        some ⟨none, item, i⟩ := by
      rw [List.getElem?_map, List.getElem?_zipIdx, hitem]
      simp
    have bound := (forall₂_getElem? each here hround).2 x item (hx ⟨none, item, i⟩ rfl)
    exact (bound.tokens token ht).get? hg hl

/-- The binding of a loop over a field, by the name of the field, and the field. -/
def Instr.fieldLoop? : Instr → Option (LoopBinding × String)
  | .openLoop _ binding (.root _ (.field f)) _ => some (binding, f)
  | _ => none

/-- The number of items of a list. -/
def Value.listLength? : Value → Option Nat
  | .list _ items => some items.length
  | _ => none

/-- A list of two items. One write fails below the first of them, the next one changes the second,
one shows the handlers, and the last one fails at the list itself. -/
theorem Component.captured_items_current_list :
    let source := "\x7b#each todos as todo\x7d\x7b#if open\x7d<b onclick=\x7bpick(todo)\x7d></b>\x7b/if\x7d\x7b/each\x7d"
    let context : Context :=
      { state := ⟨0, [("open", .bool false),
          ("todos", .list 1 [.map 2 [("text", .text "a")], .map 3 [("text", .text "b")]])], [], ⟨4⟩⟩
        props := .map 5 []
        methods := []
        handlers := .withCapacity 16
        dependencies := none
        diagnostics := [] }
    let sets : List (String × Value) := [("todos.0.text.x", .int 1), ("todos.1.text", .text "c"),
      ("open", .bool true), ("todos.7", .null)]
    ∃ t, (Engine.new.build none source).2 = .ok t ∧
      let c := (Component.new t context).setAll sets
      tokensOf c.tree = [1, 2] ∧ c.context.handlers.live = [1, 2] ∧ c.context.state.dirty = [] ∧
        ∃ mark items, c.context.state.entries.get? "todos" = some (.list mark items) ∧
          items.length = 2 ∧
          ∀ block ∈ blocksAll c.tree, block.1.start = 0 →
            ∃ rounds : List (List Node), block.2 = rounds.flatten ∧ rounds.length = 2 ∧
              ∀ (i : Nat) (item : Value) (round : List Node),
                items[i]? = some item → rounds[i]? = some round →
                  ∀ token ∈ Nodes.ownTokens t.program "todo" round,
                    ∀ captured, c.context.handlers.get? token = some captured →
                      "todo" ∈ captured.source.locals →
                        captured.locals.lookup "todo" = some item := by
  intro source context sets
  let binding : LoopBinding := ⟨["todo"], some "index", false⟩
  have quiet : (Engine.new.build none source).2.toOption.map (fun t =>
      t.program.instrs.toList.all fun instr => instr.exprs.all fun e => !e.callsMethod) =
        some true := by decide +kernel
  have opens : (Engine.new.build none source).2.toOption.bind (fun t =>
      t.program.instrs[0]?.bind Instr.fieldLoop?) = some (binding, "todos") := by decide +kernel
  have facts : (Engine.new.build none source).2.toOption.map (fun t =>
      let c := (Component.new t context).setAll sets
      (tokensOf c.tree, c.context.handlers.live,
        reliableAfter "todos" true (Component.new t context) sets)) =
        some ([1, 2], [1, 2], true) := by decide +kernel
  have held : (Engine.new.build none source).2.toOption.bind (fun t =>
      (((Component.new t context).setAll sets).context.state.entries.get? "todos").bind
        Value.listLength?) = some 2 := by decide +kernel
  rcases h : (Engine.new.build none source).2 with fault | t
  · rw [h] at facts
    cases facts
  rw [h] at quiet opens facts held
  clear_value context sets
  obtain ⟨tokens, facts⟩ := Prod.mk.inj (Option.some.inj facts)
  obtain ⟨live, reliable⟩ := Prod.mk.inj facts
  have reads : t.OnlyReads context := by
    refine Template.onlyReads_of_callsMethod ?_ context
    intro instr hi e he
    have all := List.all_eq_true.1 (List.all_eq_true.1 (Option.some.inj quiet) instr hi) e he
    simpa using all
  have loops : t.program.LoopsOver "todos" 0 binding := by
    obtain ⟨_, ⟨⟩, opens⟩ := Option.bind_eq_some_iff.1 opens
    obtain ⟨instr, hi, opens⟩ := Option.bind_eq_some_iff.1 opens
    unfold Instr.fieldLoop? at opens
    split at opens
    · cases opens
      exact ⟨_, _, _, hi, rfl⟩
    · cases opens
  have names : binding.NamesItem "todo" := by
    intro item hk
    obtain ⟨key, value, index⟩ := item
    cases hk
    rfl
  obtain ⟨clean, shown⟩ := Component.captured_items_current h reads reliable
  obtain ⟨_, ⟨⟩, held⟩ := Option.bind_eq_some_iff.1 held
  obtain ⟨v, hv, held⟩ := Option.bind_eq_some_iff.1 held
  unfold Value.listLength? at held
  split at held
  case h_2 => cases held
  case h_1 mark items =>
    replace held : items.length = 2 := Option.some.inj held
    refine ⟨t, rfl, tokens, live, clean, mark, items, hv, held, ?_⟩
    intro block hb start
    obtain ⟨rounds, n, flat, length, -, captured⟩ :=
      shown mark items hv block hb binding (start ▸ loops)
    refine ⟨rounds, flat, length.trans held, ?_⟩
    intro i item round hi hr
    exact captured i item round hi hr "todo" names

/-- After a write that fails below an item, and after which no change is noted, a live handler has
another collection captured than the one in the state. -/
theorem Component.captured_item_differs :
    let source := "\x7b#each todos as todo\x7d<b onclick=\x7bsame(todo, todos[0])\x7d></b>\x7b/each\x7d"
    let context : Context :=
      { state := ⟨0, [("todos", .list 1 [.map 2 [("text", .text "a")]])], [], ⟨3⟩⟩
        props := .map 4 []
        methods := []
        handlers := .withCapacity 16
        dependencies := none
        diagnostics := [] }
    let mark? (v : Option Value) : Option Mark := match v with
      | some (.list mark _) | some (.map mark _) => some mark
      | _ => none
    ∃ t, (Engine.new.build none source).2 = .ok t ∧
      let c := ((Component.new t context).set "todos.0.text.x" (.int 1)).2
      c.context.state.dirty = [] ∧ tokensOf c.tree = [1] ∧
        ∃ captured, c.context.handlers.get? 1 = some captured ∧
          ∃ kept held : Mark, mark? (captured.locals.lookup "todo") = some kept ∧
            mark? (c.get? "todos.0") = some held ∧ kept ≠ held := by
  intro source context mark?
  have facts : (Engine.new.build none source).2.toOption.bind (fun t =>
      let c := ((Component.new t context).set "todos.0.text.x" (.int 1)).2
      (c.context.handlers.get? 1).map fun captured =>
        (c.context.state.dirty, tokensOf c.tree, mark? (captured.locals.lookup "todo"),
          mark? (c.get? "todos.0"))) = some ([], [1], some 2, some 5) := by decide +kernel
  rcases h : (Engine.new.build none source).2 with fault | t
  · rw [h] at facts
    cases facts
  rw [h] at facts
  clear_value mark? context
  obtain ⟨captured, live, facts⟩ := Option.map_eq_some_iff.1 facts
  obtain ⟨clean, facts⟩ := Prod.mk.inj facts
  obtain ⟨tokens, facts⟩ := Prod.mk.inj facts
  obtain ⟨kept, held⟩ := Prod.mk.inj facts
  exact ⟨t, rfl, clean, tokens, captured, live, 2, 5, kept, held, by decide⟩

end LiveTemplate
