/-
Components stay up to date. Whatever is done with a component, by writes, handlers and flushes in
any order, its tree shows an earlier state from which only noted fields have changed since. So
whenever no change is noted, the tree is the one that rendering the template anew would give, up
to what a page does not show.
-/
import LiveTemplate.Component
import LiveTemplate.Engine
import LiveTemplate.Proofs.Program.Compilation
import LiveTemplate.Proofs.Program.Dependents
import LiveTemplate.Proofs.Render.Incremental
import LiveTemplate.Proofs.State.Changes

namespace LiveTemplate

/-! ## Operations -/

/-- What can be done with a component. -/
inductive Operation where
  | set (path : String) (v : Value)
  | flush
  | render
  | dispatch (handler : Handler) (event : Value)
  /-- Writes to the state alone. -/
  | write (path : String) (v : Value)
  | touch (field : String)

/-- The component with another state. -/
def Component.withState (c : Component) (state : State) : Component :=
  { c with context := { c.context with state } }

/-- The component after an operation, also one that failed. -/
def Operation.run (c : Component) : Operation → Component
  | set path v => (c.set path v).2
  | flush => c.flush.2
  | render => c.render
  | dispatch handler event => (c.dispatch handler event).2
  | write path v => c.withState (State.set path v c.context.state).2
  | touch field => c.withState (c.context.state.touch field)

/-- The component after operations, one after the other. -/
def Component.perform (c : Component) (operations : List Operation) : Component :=
  operations.foldl Operation.run c

/-! ## Templates -/

/-- A template that an engine builds holds the program of its source, and depends on what the
actions of the program read. -/
theorem Engine.build_ok {engine : Engine} {name : Option String} {source : String} {t : Template}
    (h : (engine.build name source).2 = .ok t) :
    (compile t.functions.contains t.source).program = .ok t.program ∧
      t.dependencies = .ofActions t.program.actions.toList := by
  have direct {source : String} (h : (engine.compileSource name source).2 = .ok t) :
      (compile t.functions.contains t.source).program = .ok t.program ∧
        t.dependencies = .ofActions t.program.actions.toList := by
    unfold compileSource at h
    dsimp only at h
    rcases hc : (compile engine.functions.contains source).program with fault | program
    · rw [hc] at h
      cases h
    · rw [hc] at h
      cases h
      exact ⟨hc, rfl⟩
  unfold build at h
  split at h
  · split at h
    · cases h
    · exact direct h
  · exact direct h

/-- A template as it is built from an outline, with plain expressions and no attribute twice. -/
structure Template.Steady (t : Template) (items : List Item) : Prop where
  laidOut : t.program.LaidOut items
  dependencies : t.dependencies = .ofActions t.program.actions.toList
  plain : t.Plain
  distinct : t.program.DistinctAttributes

/-! ## Updates -/

/-- Bringing a tree up to date with a change of some fields gives the tree that the template has
now. -/
theorem Template.Steady.update_like {t : Template} {items : List Item} (ht : t.Steady items)
    {changed : List String} (hc : changed ≠ []) {c₀ c : Context}
    (hf : ∀ f, f ∉ changed → Option.Rel Value.Like (c₀.state.entries.get? f) (c.state.entries.get? f))
    (hprops : c₀.props.Like c.props) {nodes : List Node}
    (like : Nodes.Like nodes (Items.view t c₀ .start [] items)) :
    Nodes.Like (t.update changed nodes c).1.2 (Items.view t c .start [] items) ∧
      c.Keeps (t.update changed nodes c).2 := by
  have covers : t.Covers (t.dependencies.actionsFor changed) c₀ c := by
    intro action reads hr ha
    rw [ht.dependencies] at ha
    obtain ⟨hany, hfields⟩ := Program.reads_unchanged hr hc ha
    exact ⟨⟨fun f hr => hf f (hfields f hr), fun hw => by rw [hany] at hw; cases hw⟩, hprops⟩
  obtain ⟨nodes', ran, c', run, keeps, like'⟩ := updateNodes_like ht.plain ht.distinct covers
    items .start [] [] nodes c ht.laidOut.hosted .nil like ⟨.refl _, .refl _⟩
  rw [update_eq run]
  exact ⟨like', keeps⟩

/-! ## Components -/

/-- The methods of a context access the state by its paths only. -/
def Context.Orderly (c : Context) : Prop :=
  ∀ name method, c.methods.get? name = some method → ∀ args, ByPath (method args)

namespace Component

/-- The tree of a component is like the view of an earlier context, and since then only noted
fields have changed. -/
structure Shows (t : Template) (items : List Item) (c : Component) : Prop where
  template : c.template = t
  methods : c.context.Orderly
  tree : ∃ shown : Context, shown.state.dirty = [] ∧ shown.props = c.context.props ∧
    shown.state.Changes c.context.state ∧ Nodes.Like c.tree (Items.view t shown .start [] items)

variable {t : Template} {items : List Item} {c : Component}

/-- Writes that are noted leave the tree as it is. -/
theorem Shows.move (h : c.Shows t items) {context : Context}
    (hs : c.context.state.Changes context.state) (hp : context.props = c.context.props)
    (hm : context.methods = c.context.methods) : Shows t items { c with context } := by
  obtain ⟨shown, hd, hprops, changes, like⟩ := h.tree
  refine ⟨h.template, ?_, shown, hd, hprops.trans hp.symm, changes.trans hs, like⟩
  intro name method hn
  dsimp only at hn
  rw [hm] at hn
  exact h.methods name method hn

/-- A component that was just rendered. -/
theorem shows_new (ht : t.Steady items) {context : Context} (hm : context.Orderly) :
    (new t context).Shows t items := by
  let shown : Context := { t.prepare context with state := context.state.takeDirty.2 }
  have same : (t.prepare context).Like shown := ⟨.refl _, .refl _⟩
  obtain ⟨like, keeps⟩ := Items.render_like ht.plain ht.distinct items .start [] []
    (t.prepare context) ht.laidOut.hosted .nil same
  rw [← Template.render_eq ht.laidOut] at like keeps
  obtain ⟨supply, hs⟩ := keeps.state
  refine ⟨rfl, ?_, shown, rfl, keeps.props.symm, ?_, like⟩
  · intro name method hn
    have methods : (t.render context).2.methods = context.methods := keeps.methods
    rw [show (new t context).context.methods = (t.render context).2.methods from rfl, methods] at hn
    exact hm name method hn
  · refine .of_like rfl ?_
    show Value.Like _ (t.render context).2.state.value
    rw [hs]
    exact .refl _

/-- Bringing the tree up to date: what is not run again reads no changed field. -/
theorem Shows.flush (ht : t.Steady items) (h : c.Shows t items) : c.flush.2.Shows t items := by
  obtain ⟨template, hm, shown, hshown, hprops, changes, like⟩ := h
  unfold Component.flush
  dsimp only [State.takeDirty]
  by_cases hdirty : c.context.state.dirty.isEmpty = true
  · rw [if_pos hdirty]
    exact ⟨template, hm, shown, hshown, hprops, changes, like⟩
  rw [if_neg hdirty]
  let context : Context := { c.context with state := { c.context.state with dirty := [] } }
  have written : c.context.state.dirty ≠ [] := fun hnil => hdirty (List.isEmpty_iff.2 hnil)
  obtain ⟨like', keeps⟩ := ht.update_like (c := context) written changes.fields (hprops ▸ .refl _)
    like
  rw [template]
  generalize t.update c.context.state.dirty c.tree context = updated at like' keeps ⊢
  obtain ⟨supply, hs⟩ := keeps.state
  refine ⟨rfl, fun name method hn => ?_, context, rfl, keeps.props.symm, .of_like ?_ ?_, like'⟩
  · have methods : updated.2.methods = c.context.methods := keeps.methods
    dsimp only at hn
    rw [methods] at hn
    exact hm name method hn
  · show updated.2.state.dirty = []
    rw [hs]
  · dsimp only
    rw [hs]
    exact .refl _

theorem Shows.set (ht : t.Steady items) (h : c.Shows t items) (path : String) (v : Value) :
    (c.set path v).2.Shows t items := by
  have changes := State.set_changes path v c.context.state
  unfold Component.set
  generalize State.set path v c.context.state = result at changes ⊢
  rcases result with ⟨e | _, state⟩
  · exact h.move changes rfl rfl
  · have moved : (c.withState state).Shows t items := h.move changes rfl rfl
    exact moved.flush ht

/-- A handler writes through the methods only, which note what they change. -/
theorem Shows.invokeSource (h : c.Shows t items) (handler : HandlerSource) (source : String)
    (scope : Scope) (event : Value) : (c.invokeSource handler source scope event).2.Shows t items := by
  have methods : (c.context.env c.template source scope).MethodsMove State.Changes :=
    fun name method hn args => (h.methods name method hn args).changes
  exact h.move (State.changes_order.invoke methods event handler.expr c.context.state) rfl rfl

theorem Shows.invoke (h : c.Shows t items) (handler : Handler) (event : Value) :
    (c.invoke handler event).2.Shows t items := by
  unfold Component.invoke
  rcases handler with code | token
  · dsimp only
    split
    · exact h
    · exact h.invokeSource _ _ _ _
  · dsimp only
    split
    · exact h
    · rename_i captured handlers _
      have taken : Shows t items { c with context := { c.context with handlers } } :=
        h.move (.refl _) rfl rfl
      exact taken.invokeSource _ _ _ _

/-- What one operation leaves. -/
theorem Shows.run (ht : t.Steady items) (h : c.Shows t items) :
    ∀ operation : Operation, (operation.run c).Shows t items
  | .set path v => h.set ht path v
  | .flush => h.flush ht
  | .render => by
    show (new c.template c.context).Shows t items
    rw [h.template]
    exact shows_new ht h.methods
  | .dispatch handler event => (h.invoke handler event).flush ht
  | .write path v => h.move (State.set_changes path v c.context.state) rfl rfl
  | .touch field => h.move (State.touch_changes c.context.state field) rfl rfl

theorem Shows.perform (ht : t.Steady items) : ∀ (operations : List Operation) {c : Component},
    c.Shows t items → (c.perform operations).Shows t items
  | [], _, h => h
  | operation :: rest, _, h => Shows.perform ht rest (h.run ht operation)

/-- Where no change is noted, the tree is the one that rendering gives. -/
theorem Shows.like_render (ht : t.Steady items) (h : c.Shows t items)
    (hdirty : c.context.state.dirty = []) : Nodes.Like c.tree (t.render c.context).1 := by
  obtain ⟨shown, -, hprops, changes, like⟩ := h.tree
  have same : (t.prepare c.context).Like shown :=
    ⟨(changes.whole hdirty).symm, hprops ▸ .refl _⟩
  have anew := (Items.render_like ht.plain ht.distinct items .start [] [] (t.prepare c.context)
    ht.laidOut.hosted .nil same).1
  rw [← Template.render_eq ht.laidOut] at anew
  exact like.trans anew.symm

end Component

/-- Incremental updates equal full renders. Take a template that compiles, with plain expressions
and no attribute twice in an element, and methods that access the state by its paths only. After
any operations on a component, succeeding or failing, whenever no change is noted the tree is the
one that the template renders in the current context, up to the numbers of handler tokens, the
identity of lists and maps and the order of attributes. -/
theorem Component.tree_like_render {engine : Engine} {name : Option String} {source : String}
    {t : Template} (h : (engine.build name source).2 = .ok t) (hp : t.Plain)
    (hd : t.program.DistinctAttributes) {context : Context} (hm : context.Orderly)
    (operations : List Operation)
    (clean : ((Component.new t context).perform operations).context.state.dirty = []) :
    Nodes.Like ((Component.new t context).perform operations).tree
      (t.render ((Component.new t context).perform operations).context).1 := by
  obtain ⟨hc, hdeps⟩ := Engine.build_ok h
  obtain ⟨items, -, hl⟩ := (compile_refines t.functions.contains t.source).ok hc
  have ht : t.Steady items := ⟨hl, hdeps, hp, hd⟩
  exact ((shows_new ht hm).perform ht operations).like_render ht clean

/-- A conditional inside a loop over elements: a field is written, so that the conditional runs again
with its loop variable; then an item is written to the state alone, and a handler calls a method. -/
theorem Component.tree_like_render_list :
    let source := "<ul class=\x7bkind\x7d>\x7b#each todos as todo\x7d<li>\x7b#if open\x7d\x7btodo.text\x7d\x7b/if\x7d</li>\x7b/each\x7d</ul>"
    let context : Context :=
      { state := ⟨0, [("kind", .text "a"), ("open", .bool false),
          ("todos", .list 1 [.map 2 [("text", .text "x")]])], [], ⟨3⟩⟩
        props := .map 4 []
        methods := [("rename", fun _ => do State.set "kind" (.text "b"); return .null)]
        handlers := .withCapacity 16
        dependencies := none
        diagnostics := [] }
    let operations : List Operation := [.set "open" (.bool true), .write "todos.0.text" (.text "y"),
      .dispatch (.inline "this.rename()") .null]
    ∃ t, (Engine.new.build none source).2 = .ok t ∧
      ((Component.new t context).perform operations).context.state.dirty = [] ∧
      Nodes.Like ((Component.new t context).perform operations).tree
        (t.render ((Component.new t context).perform operations).context).1 := by
  intro source context operations
  have orderly : context.Orderly := by
    intro name method hn args
    have hn' : (if name = "rename" then some _ else none) = some method :=
      (lookup_cons_if "rename" _ []).symm.trans hn
    split at hn'
    · cases hn'
      exact .andThen (.set _ _) fun _ => .pure _
    · cases hn'
  have attributes : (Engine.new.build none source).2.toOption.map
      (fun t => t.program.instrs.toList.map Instr.attribute?) =
        some (none :: some "class" :: List.replicate 11 none) := by decide +kernel
  have clean : (Engine.new.build none source).2.toOption.map
      (fun t => ((Component.new t context).perform operations).context.state.dirty) =
        some [] := by decide +kernel
  have plain : (Engine.new.build none source).2.toOption.map
      (fun t => t.program.instrs.toList.all fun instr =>
        instr.exprs.all fun e => e.subterms.all fun
          | .root .. | .member .. => true
          | _ => false) = some true := by decide +kernel
  rcases h : (Engine.new.build none source).2 with fault | t
  · rw [h] at clean
    cases clean
  rw [h] at attributes clean plain
  replace attributes := Option.some.inj attributes
  replace clean : ((Component.new t context).perform operations).context.state.dirty = [] :=
    Option.some.inj clean
  replace plain := Option.some.inj plain
  have only : ∀ (i : Nat) (a : Instr) (name : String), t.program.instrs[i]? = some a →
      a.attribute? = some name → i = 1 := by
    intro i a name hi ha
    have found : (none :: some "class" :: List.replicate 11 none)[i]? = some (some name) := by
      rw [← attributes, List.getElem?_map, Array.getElem?_toList, hi, Option.map_some, ha]
    rcases i with _ | _ | i
    · cases found
    · rfl
    · cases List.eq_of_mem_replicate (List.mem_of_getElem? (l := List.replicate 11 none) found)
  have distinct : t.program.DistinctAttributes := by
    intro i j a b name hlt hi hj ha hb
    have hi' := only i a name hi ha
    have hj' := only j b name hj hb
    omega
  have hp : t.Plain := by
    intro instr hi e he x hx
    rw [List.all_eq_true] at plain
    have hx' := List.all_eq_true.1 (List.all_eq_true.1 (plain instr hi) e he) x hx
    cases x with
    | root | member => trivial
    | _ => cases hx'
  -- what the context and the operations are would be evaluated again and again below
  clear_value context operations
  exact ⟨t, rfl, clean, Component.tree_like_render h hp distinct orderly operations clean⟩

end LiveTemplate
