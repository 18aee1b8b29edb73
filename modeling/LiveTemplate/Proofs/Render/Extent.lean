/-
How far an update reaches. The sites of an update are the outermost blocks of the actions that run
again and the dynamic attributes of these actions outside of those blocks. An update runs the sites
in the order in which they stand in the tree and puts what they give in their stead; every other
node stays, and so do the attributes that have another name than those that are set. The actions it
reports are those of the sites.
-/
import LiveTemplate.Proofs.Program.Dependents
import LiveTemplate.Proofs.Render.Capture

namespace LiveTemplate

/-! ## Sites -/

/-- A part of a tree that an update runs again. -/
inductive Site where
  | block (anchor : Anchor) (children : List Node)
  | dynamic (binding : AttributeBinding)

def Site.action : Site → ActionId
  | block anchor _ => anchor.action
  | dynamic binding => binding.action

/-- The dynamic attributes of an element that some actions set. -/
def Element.concerned (actions : List ActionId) (e : Element) : List AttributeBinding :=
  e.bindings.filter fun b => b.action ∈ actions

mutual

/-- The outermost blocks of some actions in a node and the dynamic attributes of these actions
outside of them, in order. -/
def Node.sites (actions : List ActionId) : Node → List Site
  | .text _ | .html _ => []
  | .element e children => (e.concerned actions).map .dynamic ++ sitesAll actions children
  | .block anchor children =>
    if anchor.action ∈ actions then [.block anchor children] else sitesAll actions children

def sitesAll (actions : List ActionId) : List Node → List Site
  | [] => []
  | n :: rest => n.sites actions ++ sitesAll actions rest

end

/-- What a site gives when it is run again. -/
inductive Given where
  | children (nodes : List Node)
  | value (name : String) (value : Option (Option String))

/-- Runs a site again, with the variables that were in scope. A block lets go of its handlers
first. -/
def Template.runSite (t : Template) : Site → Run Given
  | .block anchor children => do
    releaseAll children
    let (_, children) ← t.runBlock t.fuel anchor.start anchor.scope
    return .children children
  | .dynamic b => do
    match t.program.instrs[b.pc]? with
    | some (.setAttributeExpr name e action) =>
      return .value name (← t.attributeValue b.scope e action)
    | _ => throw (.notAnAction b.pc)

/-! ## What is replaced and what stays -/

/-- The name of the attribute that a binding sets. -/
def Program.attributeName? (program : Program) (b : AttributeBinding) : Option String :=
  match program.instrs[b.pc]? with
  | some (.setAttributeExpr name _ _) => some name
  | _ => none

/-- The names of the attributes that some actions set on an element. -/
def Element.namesSet (program : Program) (actions : List ActionId) (e : Element) : List String :=
  (e.concerned actions).filterMap program.attributeName?

/-- Sets attributes one after the other. -/
def Element.setAll (set : List (String × Option (Option String)))
    (attrs : List (String × Option String)) : List (String × Option String) :=
  set.foldl (fun attrs a => setIn a.1 a.2 attrs) attrs

mutual

/-- The second node is the first one with what its sites gave in their stead. -/
inductive Node.Replaced (program : Program) (actions : List ActionId) :
    Node → List Given → Node → Prop
  | text (s : String) : Node.Replaced program actions (.text s) [] (.text s)
  | html (s : String) : Node.Replaced program actions (.html s) [] (.html s)
  | again {anchor : Anchor} (old new : List Node) : anchor.action ∈ actions →
    Node.Replaced program actions (.block anchor old) [.children new] (.block anchor new)
  | block {anchor : Anchor} {children children' : List Node} {given : List Given} :
    anchor.action ∉ actions → Nodes.Replaced program actions children given children' →
    Node.Replaced program actions (.block anchor children) given (.block anchor children')
  | element {e : Element} {children children' : List Node}
    {set : List (String × Option (Option String))} {given : List Given} :
    set.map (·.1) = e.namesSet program actions →
    Nodes.Replaced program actions children given children' →
    Node.Replaced program actions (.element e children)
      (set.map (fun a => .value a.1 a.2) ++ given)
      (.element { e with attrs := Element.setAll set e.attrs } children')

inductive Nodes.Replaced (program : Program) (actions : List ActionId) :
    List Node → List Given → List Node → Prop
  | nil : Nodes.Replaced program actions [] [] []
  | cons {n n' : Node} {rest rest' : List Node} {given more : List Given} :
    Node.Replaced program actions n given n' → Nodes.Replaced program actions rest more rest' →
    Nodes.Replaced program actions (n :: rest) (given ++ more) (n' :: rest')

end

mutual

/-- What an update of some actions leaves of a node: all but the children of its outermost blocks
of these actions and the attributes by the names that are set. -/
def Node.outside (program : Program) (actions : List ActionId) : Node → Node
  | .text s => .text s
  | .html s => .html s
  | .element e children =>
    .element { e with attrs := e.attrs.filter fun a => a.1 ∉ e.namesSet program actions }
      (outsideAll program actions children)
  | .block anchor children =>
    .block anchor (if anchor.action ∈ actions then [] else outsideAll program actions children)

def outsideAll (program : Program) (actions : List ActionId) : List Node → List Node
  | [] => []
  | n :: rest => n.outside program actions :: outsideAll program actions rest

end

variable {program : Program} {actions : List ActionId}

namespace Element

theorem filter_setIn {names : List String} {name : String} {value : Option (Option String)}
    (h : name ∈ names) : ∀ attrs : List (String × Option String),
      (setIn name value attrs).filter (fun a => a.1 ∉ names) =
        attrs.filter fun a => a.1 ∉ names
  | [] => by cases value <;> simp [setIn, h]
  | (n, v) :: rest => by
    by_cases hn : n = name
    · subst hn
      cases value <;> simp [setIn, h]
    · unfold setIn
      rw [if_neg hn, List.filter_cons, List.filter_cons, filter_setIn h rest]

/-- Attributes of other names stay when some are set. -/
theorem filter_setAll {names : List String} : ∀ (set : List (String × Option (Option String)))
    (attrs : List (String × Option String)), (∀ a ∈ set, a.1 ∈ names) →
      (setAll set attrs).filter (fun a => a.1 ∉ names) = attrs.filter fun a => a.1 ∉ names
  | [], _, _ => rfl
  | a :: rest, attrs, h => by
    obtain ⟨ha, hr⟩ := List.forall_mem_cons.1 h
    exact (filter_setAll rest _ hr).trans (filter_setIn ha attrs)

end Element

mutual

/-- Where the sites were replaced, all that is outside of them stays. -/
theorem Node.Replaced.outside : ∀ {n n' : Node} {given : List Given},
    n.Replaced program actions given n' → n'.outside program actions = n.outside program actions
  | _, _, _, .text _ | _, _, _, .html _ => rfl
  | _, _, _, .again _ _ ha => by simp only [Node.outside, if_pos ha]
  | _, _, _, .block ha inside => by simp only [Node.outside, if_neg ha, inside.outside]
  | .element e _, _, _, .element names inside => by
    have stays := Element.filter_setAll _ e.attrs fun a ha => names ▸ List.mem_map_of_mem ha
    simp only [Node.outside, inside.outside]
    exact congrArg (fun attrs => Node.element { e with attrs } _) stays

theorem Nodes.Replaced.outside : ∀ {nodes nodes' : List Node} {given : List Given},
    Nodes.Replaced program actions nodes given nodes' →
      outsideAll program actions nodes' = outsideAll program actions nodes
  | _, _, _, .nil => rfl
  | _, _, _, .cons first others => by simp only [outsideAll, first.outside, others.outside]

end

variable {t : Template}

/-! ## Registries -/

theorem Follows.handlers {α : Type} {scope : Scope} {e : Expr} {m : StateM Context α}
    {f : Option Value → α} (h : Follows t scope e m f) (c : Context) :
    (m c).2.handlers = c.handlers := by
  obtain ⟨diagnostics, hm⟩ := h.context c
  rw [hm]

theorem Follows.handlers_later {α : Type} {scope : Scope} {e : Expr} {m : StateM Context α}
    {f : Option Value → α} (h : Follows t scope e m f) (c : Context) :
    c.handlers.Later (m c).2.handlers := by
  rw [h.handlers]
  exact .refl _

theorem Features.render_later (scope : Scope) : ∀ (features : List Feature) (p : Place)
    (e : Element) (c : Context),
      c.handlers.Later (Features.render t p scope e features c).2.handlers
  | [], _, _, c => .refl _
  | f :: rest, p, e, c => by
    have first : c.handlers.Later (f.render t p scope e c).2.handlers := by
      cases f with
      | plain | flag => exact .refl _
      | dynamic name expr => exact (t.attributeValue_follows scope expr p.action).handlers_later c
      | listener event handler => exact (handler.attach_later scope c).handlers
    exact first.trans (Features.render_later scope rest (p + f.room) _ _)

theorem mapM_later {α : Type} {f : α → StateM Context (List Node)}
    (h : ∀ a (c : Context), c.handlers.Later (f a c).2.handlers) : ∀ (xs : List α) (c : Context),
      c.handlers.Later (xs.mapM f c).2.handlers
  | [], c => .refl _
  | x :: xs, c => by
    rw [List.mapM_cons]
    exact (h x c).trans (mapM_later h xs (f x c).2)

mutual

/-- Rendering a part leaves the handlers alone that were kept before. -/
theorem Item.render_later : ∀ (i : Item) (p : Place) (scope : Scope) (c : Context),
    c.handlers.Later (i.render t p scope c).2.handlers
  | .text _, _, _, _ => .refl _
  | .element tag key features children, p, scope, c =>
    (Features.render_later scope features (p + .one) (.plain tag key) c).trans
      (Items.render_later children (p + (.one + Features.room features)) scope _)
  | .block b, p, scope, c => Block.render_later b p scope c

theorem Items.render_later : ∀ (items : List Item) (p : Place) (scope : Scope) (c : Context),
    c.handlers.Later (Items.render t p scope items c).2.handlers
  | [], _, _, _ => .refl _
  | i :: rest, p, scope, c =>
    (Item.render_later i p scope c).trans (Items.render_later rest (p + i.room) scope _)

theorem Block.render_later : ∀ (b : Block) (p : Place) (scope : Scope) (c : Context),
    c.handlers.Later (b.render t p scope c).2.handlers
  | .emit e mode, p, scope, c => (t.emitted_follows scope e mode p.action).handlers_later c
  | .chain clauses, p, scope, c => Clauses.render_later clauses p.action (p + Place.acting) scope c
  | .loop binding collection body, p, scope, c =>
    ((t.items_follows scope collection p.action).handlers_later c).trans
      (mapM_later (fun item c => Items.render_later body _ (scope ++ binding.bind item) c) _ _)

theorem Clauses.render_later : ∀ (clauses : Clauses) (action : ActionId) (p : Place)
    (scope : Scope) (c : Context),
      c.handlers.Later (clauses.render t action p scope c).2.handlers
  | .done, _, _, _, c => .refl _
  | .otherwise body, _, p, scope, c => Items.render_later body p scope c
  | .clause test negate body rest, action, p, scope, c => by
    have first := (t.test_follows scope test negate action).handlers_later c
    rw [Clauses.render_clause]
    generalize t.test scope test negate action c = outcome at first ⊢
    rcases outcome with ⟨_ | _ | _, c₁⟩
    · exact first
    · exact first.trans (rest.render_later action _ scope c₁)
    · exact first.trans (Items.render_later body (p + Place.one) scope c₁)

end

/-! ## Updates -/

namespace Template

theorem mapM_append_ok {α β : Type} {f : α → Run β} {xs ys : List α} {as bs : List β}
    {c c₁ c₂ : Context} (first : xs.mapM f c = (.ok as, c₁))
    (others : ys.mapM f c₁ = (.ok bs, c₂)) :
    (xs ++ ys).mapM f c = (.ok (as ++ bs), c₂) := by
  rw [List.mapM_append, stateful_bind_ok first, stateful_bind_ok others]
  rfl

theorem runSite_dynamic {b : AttributeBinding} {name : String} {e : Expr} {action : ActionId}
    (hi : t.program.instrs[b.pc]? = some (.setAttributeExpr name e action)) (c : Context) :
    t.runSite (.dynamic b) c = (.ok (.value name (t.attributeValue b.scope e action c).1),
      (t.attributeValue b.scope e action c).2) := by
  rw [runSite, hi]
  rfl

/-- A block gives what it renders to now, without the handlers that it had. -/
theorem runSite_block {anchor : Anchor} {b : Block} {p : Place} (hosted : b.Hosted t.program p)
    (hp : p.pc = anchor.start) (children : List Node) (c : Context) :
    t.runSite (.block anchor children) c =
      let (block, c) := b.render t p anchor.scope (releaseAll children c).2
      (.ok (.children block.2), c) := by
  have again := runBlock_eq anchor.scope b p t.fuel (releaseAll children c).2 hosted
    (Nat.le_succ_of_le hosted.room_le)
  show (do
    let _ ← releaseAll children
    _ : Run Given) c = _
  rw [stateful_lift_bind, ← hp, stateful_bind_ok again]
  rfl

/-- Evaluating attributes again sets them one after the other. -/
theorem updateAttributes_replaces (actions : List ActionId) :
    ∀ (bindings : List AttributeBinding) (e : Element) (c : Context),
      (∀ b ∈ bindings, ∃ name expr action,
        t.program.instrs[b.pc]? = some (.setAttributeExpr name expr action)) →
      let sites := bindings.filter fun b => b.action ∈ actions
      ∃ set c', t.updateAttributes actions bindings e c =
          (.ok ({ e with attrs := Element.setAll set e.attrs },
            sites.map AttributeBinding.action), c') ∧
        (sites.map Site.dynamic).mapM t.runSite c =
          (.ok (set.map fun a => .value a.1 a.2), c') ∧
        set.map (·.1) = sites.filterMap t.program.attributeName? ∧
        c.handlers.Later c'.handlers
  | [], e, c, _ => ⟨[], c, rfl, rfl, rfl, .refl _⟩
  | b :: rest, e, c, h => by
    obtain ⟨⟨name, expr, action, hi⟩, hr⟩ := List.forall_mem_cons.1 h
    by_cases ha : b.action ∈ actions
    · have value := t.attributeValue_follows b.scope expr action
      obtain ⟨set, c', run, given, names, later⟩ := updateAttributes_replaces actions rest
        (e.setAttr name (t.attributeValue b.scope expr action c).1)
        (t.attributeValue b.scope expr action c).2 hr
      refine ⟨(name, (t.attributeValue b.scope expr action c).1) :: set, c', ?_, ?_, ?_, ?_⟩
      · rw [List.filter_cons_of_pos (by simpa using ha)]
        exact updateAttributes_again ha hi run
      · rw [List.filter_cons_of_pos (by simpa using ha), List.map_cons, List.mapM_cons,
          stateful_bind_ok (runSite_dynamic hi c), stateful_bind_ok given]
        rfl
      · have named : t.program.attributeName? b = some name := by
          rw [Program.attributeName?, hi]
        rw [List.filter_cons_of_pos (by simpa using ha), List.filterMap_cons_some named, ← names]
        rfl
      · exact (value.handlers_later c).trans later
    · rw [List.filter_cons_of_neg (by simpa using ha), updateAttributes_pass ha]
      exact updateAttributes_replaces actions rest e c hr

mutual

/-- An update of a node runs its sites, in order, and puts what they give in their stead. -/
theorem updateNode_replaces (actions : List ActionId) : ∀ (n : Node) (c : Context),
    n.Anchored t.program →
      ∃ n' given c', t.updateNode actions n c =
          (.ok (n', (n.sites actions).map Site.action), c') ∧
        (n.sites actions).mapM t.runSite c = (.ok given, c') ∧
        n.Replaced t.program actions given n' ∧ c.handlers.Later c'.handlers
  | .text s, c, _ => ⟨_, _, c, rfl, rfl, .text s, .refl _⟩
  | .html s, c, _ => ⟨_, _, c, rfl, rfl, .html s, .refl _⟩
  | .element e children, c, ⟨hb, hc⟩ => by
    obtain ⟨set, c₁, attributes, given, names, later⟩ :=
      updateAttributes_replaces actions e.bindings e c hb
    obtain ⟨children', more, c₂, inside, given', replaced, later'⟩ :=
      updateNodes_replaces actions children c₁ hc
    refine ⟨_, _, c₂, ?_, mapM_append_ok given given', .element names replaced,
      later.trans later'⟩
    rw [Node.sites, List.map_append, List.map_map]
    exact updateNode_element attributes inside
  | .block anchor children, c, ⟨⟨p, b, hosted, here⟩, hc⟩ => by
    by_cases ha : anchor.action ∈ actions
    · have hp : p.pc = anchor.start := (congrArg Anchor.start here).symm
      have run := updateNode_again hosted hp ha children c
      have site := runSite_block hosted hp children c
      have later := (releaseAll_later children c).handlers.trans
        (b.render_later (t := t) p anchor.scope (releaseAll children c).2)
      have same := b.render_anchor t p anchor.scope (releaseAll children c).2
      rw [← here] at same
      generalize b.render t p anchor.scope (releaseAll children c).2 = rendered at *
      obtain ⟨⟨_, new⟩, c'⟩ := rendered
      subst same
      rw [Node.sites, if_pos ha]
      refine ⟨_, [.children new], c', run, ?_, .again _ _ ha, later⟩
      rw [List.mapM_cons, stateful_bind_ok site]
      rfl
    · obtain ⟨children', given, c', inside, runs, replaced, later⟩ :=
        updateNodes_replaces actions children c hc
      rw [Node.sites, if_neg ha]
      exact ⟨_, _, c', updateNode_block ha inside, runs, .block ha replaced, later⟩

theorem updateNodes_replaces (actions : List ActionId) : ∀ (nodes : List Node) (c : Context),
    Nodes.Anchored t.program nodes →
      ∃ nodes' given c', t.updateNodes actions nodes c =
          (.ok (nodes', (sitesAll actions nodes).map Site.action), c') ∧
        (sitesAll actions nodes).mapM t.runSite c = (.ok given, c') ∧
        Nodes.Replaced t.program actions nodes given nodes' ∧ c.handlers.Later c'.handlers
  | [], c, _ => ⟨[], [], c, rfl, rfl, .nil, .refl _⟩
  | n :: rest, c, ⟨hn, hr⟩ => by
    obtain ⟨n', given, c₁, first, runs, replaced, later⟩ := updateNode_replaces actions n c hn
    obtain ⟨rest', more, c₂, others, runs', replaced', later'⟩ :=
      updateNodes_replaces actions rest c₁ hr
    refine ⟨n' :: rest', given ++ more, c₂, ?_, mapM_append_ok runs runs',
      .cons replaced replaced', later.trans later'⟩
    rw [sitesAll, List.map_append]
    exact updateNodes_cons first others

end

end Template

/-- An update of a tree that was rendered from a template concerns the actions that are noted to
read one of the fields, and those that are noted to read the whole state if there is any field. It
runs the outermost blocks of these actions and their attributes outside of those blocks, each once
and in order, and puts what they give in their stead; everything else in the tree stays, up to
attributes by the names that are set, and so do the handlers that were kept. It reports the actions
of what it ran, in ascending order. -/
theorem Engine.update_replaces_sites {engine : Engine} {name : Option String} {source : String}
    {t : Template} (h : (engine.build name source).2 = .ok t) {nodes : List Node}
    (rendered : t.Rendered nodes) (fields : List String) (c : Context) :
    let actions := t.dependencies.actionsFor fields
    (∀ id, id ∈ actions ↔ ∃ action, t.program.actions[id]? = some action ∧
      ((∃ f ∈ fields, f ∈ action.fields) ∨ fields ≠ [] ∧ action.any = true)) ∧
    ∃ ran nodes' given c', t.update fields nodes c = ((ran, nodes'), c') ∧
      (sitesAll actions nodes).mapM t.runSite c = (.ok given, c') ∧
      Nodes.Replaced t.program actions nodes given nodes' ∧
      outsideAll t.program actions nodes' = outsideAll t.program actions nodes ∧
      c.handlers.Later c'.handlers ∧
      ran.Pairwise (· < ·) ∧ ∀ id, id ∈ ran ↔ ∃ s ∈ sitesAll actions nodes, s.action = id := by
  intro actions
  obtain ⟨compiled, dependencies⟩ := Engine.build_ok h
  obtain ⟨items, -, laidOut⟩ := (compile_refines _ _).ok compiled
  refine ⟨fun id => ?_, ?_⟩
  · show id ∈ t.dependencies.actionsFor fields ↔ _
    rw [dependencies]
    exact Program.mem_actionsFor
  · obtain ⟨nodes', given, c', run, runs, replaced, later⟩ :=
      Template.updateNodes_replaces actions nodes c (rendered.anchored laidOut)
    refine ⟨_, nodes', given, c', Template.update_eq run, runs, replaced, replaced.outside, later,
      Dependencies.foldl_insertId_sorted _ .nil, fun id => ?_⟩
    rw [Dependencies.mem_foldl_insertId, List.mem_map]
    simp

/-- In a loop over elements with a dynamic attribute and a conditional, where the clauses of the
conditional are concerned as well and run as a part of it. -/
theorem Engine.update_replaces_sites_list :
    let source := "<ul class=\x7bk\x7d>\x7b#each xs as x\x7d<li title=\x7bk\x7d>\x7b#if on\x7d\x7bx\x7d\x7b:else\x7d\x7bk\x7d\x7b/if\x7d</li>\x7b/each\x7d</ul>"
    let context : Context :=
      { state := ⟨0, [("k", .text "a"), ("on", .bool true), ("xs", .list 1 [.int 7, .int 8])],
          [], ⟨3⟩⟩
        props := .map 2 []
        methods := []
        handlers := .withCapacity 16
        dependencies := none
        diagnostics := [] }
    let fields := ["k", "on"]
    ∃ t, (Engine.new.build none source).2 = .ok t ∧
      let nodes := (t.render context).1
      let c := (t.render context).2
      let actions := t.dependencies.actionsFor fields
      actions = [0, 2, 3, 5] ∧ (sitesAll actions nodes).map Site.action = [0, 2, 3, 2, 3] ∧
        ∃ nodes' given c', t.update fields nodes c = (([0, 2, 3], nodes'), c') ∧
          (sitesAll actions nodes).mapM t.runSite c = (.ok given, c') ∧
          Nodes.Replaced t.program actions nodes given nodes' ∧
          outsideAll t.program actions nodes' = outsideAll t.program actions nodes := by
  intro source context fields
  have facts : (Engine.new.build none source).2.toOption.map (fun t =>
      let nodes := (t.render context).1
      let actions := t.dependencies.actionsFor fields
      [actions, (sitesAll actions nodes).map Site.action,
        (t.update fields nodes (t.render context).2).1.1]) =
        some [[0, 2, 3, 5], [0, 2, 3, 2, 3], [0, 2, 3]] := by decide +kernel
  obtain ⟨t, built, shown⟩ := Option.map_eq_some_iff.1 facts
  obtain ⟨actions, shown⟩ := List.cons.inj shown
  obtain ⟨sites, shown⟩ := List.cons.inj shown
  have reported : (t.update fields (t.render context).1 (t.render context).2).1.1 = [0, 2, 3] :=
    (List.cons.inj shown).1
  obtain ⟨-, ran, nodes', given, c', update, runs, replaced, outside, -⟩ :=
    update_replaces_sites (ok_of_toOption built) (.render context) fields (t.render context).2
  rw [update] at reported
  subst reported
  exact ⟨t, ok_of_toOption built, actions, sites, nodes', given, c', update, runs, replaced,
    outside⟩

/-- A static attribute is lost when a dynamic one of its name is set, while a render keeps both. -/
theorem Component.static_attribute_lost :
    let source := "<p a=\x7bx\x7d a='s'></p>"
    let context : Context :=
      { state := ⟨0, [("x", .null)], [], ⟨2⟩⟩
        props := .map 1 []
        methods := []
        handlers := .withCapacity 16
        dependencies := none
        diagnostics := [] }
    let attrs (c : Component) := (findAll c.tree "p").map (·.1.attrs)
    ∃ t, (Engine.new.build none source).2 = .ok t ∧
      let c := Component.new t context
      let updated := (c.set "x" (.text "1")).2
      attrs c = [[("a", some "s")]] ∧ attrs updated = [[("a", some "1")]] ∧
        attrs updated.render = [[("a", some "1"), ("a", some "s")]] := by
  intro source context attrs
  have facts : (Engine.new.build none source).2.toOption.map (fun t =>
      let c := Component.new t context
      let updated := (c.set "x" (.text "1")).2
      [attrs c, attrs updated, attrs updated.render]) =
        some [[[("a", some "s")]], [[("a", some "1")]], [[("a", some "1"), ("a", some "s")]]] := by
    decide +kernel
  obtain ⟨t, built, shown⟩ := Option.map_eq_some_iff.1 facts
  obtain ⟨before, shown⟩ := List.cons.inj shown
  obtain ⟨updated, shown⟩ := List.cons.inj shown
  exact ⟨t, ok_of_toOption built, before, updated, (List.cons.inj shown).1⟩

end LiveTemplate
