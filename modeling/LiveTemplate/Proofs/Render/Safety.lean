/-
Compiled programs never get stuck. A compiled program is well-formed, so rendering runs to its end;
the blocks and attributes of a rendered tree lead back to their instructions, so they can be run
again, and this stays so when parts of the tree were replaced.
-/
import LiveTemplate.Proofs.Program.WellFormed
import LiveTemplate.Proofs.Render.Execution
import LiveTemplate.Proofs.Render.Outcome
import LiveTemplate.Render.Update

namespace LiveTemplate

/-! ## Trees that lead back to their instructions -/

mutual

/-- The blocks and dynamic attributes of a node are where the program has them. -/
def Node.Anchored (program : Program) : Node → Prop
  | .text _ | .html _ => True
  | .element e children =>
    (∀ b ∈ e.bindings, ∃ name expr action,
      program.instrs[b.pc]? = some (.setAttributeExpr name expr action)) ∧
      Nodes.Anchored program children
  | .block anchor children =>
    (∃ (p : Place) (b : Block), b.Hosted program p ∧
      anchor = ⟨p.action, p.pc, b.stop p, anchor.scope⟩) ∧ Nodes.Anchored program children

def Nodes.Anchored (program : Program) : List Node → Prop
  | [] => True
  | n :: rest => n.Anchored program ∧ Nodes.Anchored program rest

end

variable {t : Template} {scope : Scope}

theorem Nodes.anchored_iff {program : Program} : ∀ {nodes : List Node},
    Nodes.Anchored program nodes ↔ ∀ n ∈ nodes, n.Anchored program := by
  intro nodes
  induction nodes with
  | nil => simp [Nodes.Anchored]
  | cons n rest ih => rw [Nodes.Anchored, ih, List.forall_mem_cons]

mutual

theorem Node.Static.anchored {program : Program} : ∀ {n : Node}, n.Static → n.Anchored program
  | .text _, _ | .html _, _ => trivial
  | .element e children, h => by
    refine ⟨fun b hb => ?_, Nodes.Static.anchored h.2⟩
    rw [h.1] at hb
    cases hb

theorem Nodes.Static.anchored {program : Program} : ∀ {nodes : List Node},
    Nodes.Static nodes → Nodes.Anchored program nodes
  | [], _ => trivial
  | _ :: _, h => ⟨h.1.anchored, Nodes.Static.anchored h.2⟩

end

theorem Template.emitted_static (e : Expr) (mode : EmitMode) (action : ActionId) (c : Context) :
    Nodes.Static (t.emitted scope e mode action c).1 := by
  rw [(t.emitted_follows scope e mode action).result]
  rcases t.value? c scope e with _ | v
  · trivial
  · exact mode.nodes_static v

theorem Features.render_bindings {program : Program} : ∀ (features : List Feature) (p : Place)
    (e : Element) (c : Context), Features.Hosted program p features →
      (∀ b ∈ e.bindings, ∃ name expr action,
        program.instrs[b.pc]? = some (.setAttributeExpr name expr action)) →
      ∀ b ∈ (Features.render t p scope e features c).1.bindings, ∃ name expr action,
        program.instrs[b.pc]? = some (.setAttributeExpr name expr action)
  | [], _, _, _, _, he => he
  | f :: rest, p, e, c, h, he => by
    obtain ⟨hi, -, hr⟩ := h.cons
    refine Features.render_bindings rest (p + f.room) (f.render t p scope e c).1
      (f.render t p scope e c).2 hr ?_
    cases f with
    | dynamic name expr =>
      intro b hb
      rcases List.mem_append.1 hb with hb | hb
      · exact he b hb
      · cases List.mem_singleton.1 hb
        exact ⟨_, _, _, hi⟩
    | _ => exact he

mutual

/-- What a part renders to leads back to its instructions. -/
theorem Item.render_anchored : ∀ (i : Item) (p : Place) (scope : Scope) (c : Context),
    i.Hosted t.program p → (i.render t p scope c).1.Anchored t.program
  | .text _, _, _, _, _ => trivial
  | .element tag key features children, p, scope, c, h => by
    obtain ⟨-, hf, hc, -⟩ := h.element
    exact ⟨Features.render_bindings features (p + .one) (.plain tag key) c hf
      (fun _ hb => absurd hb List.not_mem_nil),
      Items.render_anchored children _ scope _ hc⟩
  | .block b, p, scope, c, h => by
    refine ⟨⟨p, b, h, ?_⟩, Block.render_anchored b p scope c h⟩
    rw [b.render_anchor]

theorem Items.render_anchored : ∀ (items : List Item) (p : Place) (scope : Scope) (c : Context),
    Items.Hosted t.program p items →
      Nodes.Anchored t.program (Items.render t p scope items c).1
  | [], _, _, _, _ => trivial
  | i :: rest, p, scope, c, h => by
    obtain ⟨hi, hr⟩ := h.cons
    exact ⟨Item.render_anchored i p scope c hi, Items.render_anchored rest (p + i.room) scope _ hr⟩

theorem Block.render_anchored : ∀ (b : Block) (p : Place) (scope : Scope) (c : Context),
    b.Hosted t.program p → Nodes.Anchored t.program (b.render t p scope c).1.2
  | .emit e mode, p, scope, c, _ => (t.emitted_static e mode p.action c).anchored
  | .chain clauses, p, scope, c, h => by
    obtain ⟨-, -, hc, -⟩ := h.chain
    exact clauses.render_anchored (p + .acting) _ p.action scope c hc
  | .loop binding collection body, p, scope, c, h => by
    obtain ⟨-, -, -, hb, -, -⟩ := h.loop
    refine Nodes.anchored_iff.2 fun n hn => ?_
    obtain ⟨round, hround, hn⟩ := List.mem_flatten.1 hn
    refine Nodes.anchored_iff.1 (results_of_mapM (fun item c => ?_) _ _ round hround) n hn
    exact Items.render_anchored body _ (scope ++ binding.bind item) c hb

theorem Clauses.render_anchored : ∀ (clauses : Clauses) (p : Place) (stop : Nat)
    (action : ActionId) (scope : Scope) (c : Context), clauses.Hosted t.program p stop →
      Nodes.Anchored t.program (clauses.render t action p scope c).1
  | .done, _, _, _, _, _, _ => trivial
  | .otherwise body, p, _, _, scope, c, h => Items.render_anchored body p scope c h
  | .clause test negate body rest, p, stop, action, scope, c, h => by
    obtain ⟨-, hb, -, hr⟩ := h.clause
    rw [Clauses.render_clause]
    rcases t.test scope test negate action c with ⟨_ | _ | _, c⟩
    · trivial
    · exact rest.render_anchored _ stop action scope c hr
    · exact Items.render_anchored body (p + .one) scope c hb

end

/-! ## Updates -/

namespace Template

variable {actions ran more : List ActionId} {c c₁ c₂ : Context}

theorem updateAttributes_again {b : AttributeBinding} {rest : List AttributeBinding}
    {e e' : Element} {name : String} {expr : Expr} {action : ActionId}
    (ha : b.action ∈ actions)
    (hi : t.program.instrs[b.pc]? = some (.setAttributeExpr name expr action))
    (others : t.updateAttributes actions rest
      (e.setAttr name (t.attributeValue b.scope expr action c).1)
      (t.attributeValue b.scope expr action c).2 = (.ok (e', ran), c₁)) :
    t.updateAttributes actions (b :: rest) e c = (.ok (e', b.action :: ran), c₁) := by
  rw [updateAttributes, updateAttributesIn, if_pos (List.contains_iff_mem.2 ha), hi]
  show (do
    let value ← t.attributeValue b.scope expr action
    _ : Run (Element × List ActionId)) c = _
  rw [stateful_lift_bind, stateful_bind_ok others]
  rfl

theorem updateAttributes_pass {b : AttributeBinding} (ha : b.action ∉ actions)
    (rest : List AttributeBinding) (e : Element) :
    t.updateAttributes actions (b :: rest) e = t.updateAttributes actions rest e := by
  rw [updateAttributes, updateAttributesIn, if_neg (mt List.contains_iff_mem.1 ha)]

theorem updateNode_element {e e' : Element} {children children' : List Node}
    (attributes : t.updateAttributes actions e.bindings e c = (.ok (e', ran), c₁))
    (inside : t.updateNodes actions children c₁ = (.ok (children', more), c₂)) :
    t.updateNode actions (.element e children) c =
      (.ok (.element e' children', ran ++ more), c₂) := by
  rw [updateNode, updateNodeIn, stateful_bind_ok attributes]
  show (t.updateNodes actions children >>= _) c₁ = _
  rw [stateful_bind_ok inside]
  rfl

/-- A block that is to run again is replaced by what it renders to now, with the variables that
were in scope. -/
theorem updateNode_again {anchor : Anchor} {b : Block} {p : Place} (h : b.Hosted t.program p)
    (hp : p.pc = anchor.start) (ha : anchor.action ∈ actions) (children : List Node)
    (c : Context) :
    t.updateNode actions (.block anchor children) c =
      let (block, c) := b.render t p anchor.scope (releaseAll children c).2
      (.ok (.block block.1 block.2, [block.1.action]), c) := by
  have again := runBlock_eq anchor.scope b p t.fuel (releaseAll children c).2 h
    (Nat.le_succ_of_le h.room_le)
  rw [updateNode, updateNodeIn, if_pos (List.contains_iff_mem.2 ha)]
  show (do
    let _ ← releaseAll children
    _ : Run (Node × List ActionId)) c = _
  rw [stateful_lift_bind, ← hp, stateful_bind_ok again]
  rfl

theorem updateNode_block {anchor : Anchor} {children children' : List Node}
    (ha : anchor.action ∉ actions)
    (inside : t.updateNodes actions children c = (.ok (children', ran), c₁)) :
    t.updateNode actions (.block anchor children) c = (.ok (.block anchor children', ran), c₁) := by
  rw [updateNode, updateNodeIn, if_neg (mt List.contains_iff_mem.1 ha), stateful_bind_ok inside]
  rfl

theorem updateNodes_cons {n n' : Node} {rest rest' : List Node}
    (first : t.updateNode actions n c = (.ok (n', ran), c₁))
    (others : t.updateNodes actions rest c₁ = (.ok (rest', more), c₂)) :
    t.updateNodes actions (n :: rest) c = (.ok (n' :: rest', ran ++ more), c₂) := by
  rw [updateNodes, updateNodesIn, stateful_bind_ok first]
  show (t.updateNodes actions rest >>= _) c₁ = _
  rw [stateful_bind_ok others]
  rfl

mutual

/-- What can never run again stays as it is. -/
theorem updateNode_static (c : Context) : ∀ {n : Node}, n.Static →
    t.updateNode actions n c = (.ok (n, []), c)
  | .text _, _ | .html _, _ => rfl
  | .element e children, h => by
    have attributes : t.updateAttributes actions e.bindings e c = (.ok (e, []), c) := by
      rw [h.1]
      rfl
    exact updateNode_element attributes (updateNodes_static c h.2)

theorem updateNodes_static (c : Context) : ∀ {nodes : List Node}, Nodes.Static nodes →
    t.updateNodes actions nodes c = (.ok (nodes, []), c)
  | [], _ => rfl
  | _ :: _, h => updateNodes_cons (updateNode_static c h.1) (updateNodes_static c h.2)

end

theorem updateAttributes_none (c : Context) (e : Element) : ∀ bindings : List AttributeBinding,
    t.updateAttributes [] bindings e c = (.ok (e, []), c)
  | [] => rfl
  | b :: rest => by
    rw [updateAttributes_pass List.not_mem_nil]
    exact updateAttributes_none c e rest

mutual

/-- Where no action is to run again, nothing does. -/
theorem updateNode_none (c : Context) : ∀ n : Node, t.updateNode [] n c = (.ok (n, []), c)
  | .text _ | .html _ => rfl
  | .element e children =>
    updateNode_element (updateAttributes_none c e e.bindings) (updateNodes_none c children)
  | .block _ children => updateNode_block List.not_mem_nil (updateNodes_none c children)

theorem updateNodes_none (c : Context) : ∀ nodes : List Node,
    t.updateNodes [] nodes c = (.ok (nodes, []), c)
  | [] => rfl
  | n :: rest => updateNodes_cons (updateNode_none c n) (updateNodes_none c rest)

end

/-- Bringing a tree up to date runs the actions again that depend on the fields, if there are
any. -/
theorem update_eq {fields : List String} {nodes nodes' : List Node}
    (run : t.updateNodes (t.dependencies.actionsFor fields) nodes c = (.ok (nodes', ran), c₁)) :
    t.update fields nodes c =
      ((ran.foldl (fun set id => Dependencies.insertId id set) [], nodes'), c₁) := by
  unfold Template.update
  dsimp only
  by_cases he : (t.dependencies.actionsFor fields).isEmpty = true
  · rw [List.isEmpty_iff.1 he, updateNodes_none] at run
    cases run
    rw [if_pos he]
    rfl
  · rw [if_neg he, run]

theorem updateAttributes_ok (actions : List ActionId) :
    ∀ (bindings : List AttributeBinding) (e : Element) (c : Context),
      (∀ b ∈ bindings, ∃ name expr action,
        t.program.instrs[b.pc]? = some (.setAttributeExpr name expr action)) →
      ∃ e' ran c', t.updateAttributes actions bindings e c = (.ok (e', ran), c') ∧
        e'.bindings = e.bindings
  | [], e, c, _ => ⟨e, [], c, rfl, rfl⟩
  | b :: rest, e, c, h => by
    obtain ⟨⟨name, expr, action, hi⟩, hr⟩ := List.forall_mem_cons.1 h
    by_cases ha : b.action ∈ actions
    · obtain ⟨e', ran, c', run, hb⟩ := updateAttributes_ok actions rest
        (e.setAttr name (t.attributeValue b.scope expr action c).1)
        (t.attributeValue b.scope expr action c).2 hr
      exact ⟨e', b.action :: ran, c', updateAttributes_again ha hi run, hb⟩
    · rw [updateAttributes_pass ha]
      exact updateAttributes_ok actions rest e c hr

mutual

/-- A tree that leads back to its instructions can be brought up to date, and then does so still. -/
theorem updateNode_ok (actions : List ActionId) : ∀ (n : Node) (c : Context),
    n.Anchored t.program →
      ∃ n' ran c', t.updateNode actions n c = (.ok (n', ran), c') ∧ n'.Anchored t.program
  | .text s, c, _ => ⟨.text s, [], c, rfl, trivial⟩
  | .html s, c, _ => ⟨.html s, [], c, rfl, trivial⟩
  | .element e children, c, ⟨hb, hc⟩ => by
    obtain ⟨e', ran, c₁, attributes, hb'⟩ := updateAttributes_ok actions e.bindings e c hb
    obtain ⟨children', more, c₂, inside, hc'⟩ := updateNodes_ok actions children c₁ hc
    exact ⟨.element e' children', ran ++ more, c₂, updateNode_element attributes inside,
      hb'.symm ▸ hb, hc'⟩
  | .block anchor children, c, ⟨⟨p, b, h, hp⟩, hc⟩ => by
    by_cases ha : anchor.action ∈ actions
    · refine ⟨_, _, _, updateNode_again h (congrArg Anchor.start hp).symm ha children c, ?_⟩
      refine ⟨⟨p, b, h, ?_⟩, b.render_anchored p anchor.scope _ h⟩
      rw [b.render_anchor]
    · obtain ⟨children', ran, c', inside, hc'⟩ := updateNodes_ok actions children c hc
      exact ⟨.block anchor children', ran, c', updateNode_block ha inside, ⟨p, b, h, hp⟩, hc'⟩

theorem updateNodes_ok (actions : List ActionId) : ∀ (nodes : List Node) (c : Context),
    Nodes.Anchored t.program nodes →
      ∃ nodes' ran c', t.updateNodes actions nodes c = (.ok (nodes', ran), c') ∧
        Nodes.Anchored t.program nodes'
  | [], c, _ => ⟨[], [], c, rfl, trivial⟩
  | n :: rest, c, ⟨hn, hr⟩ => by
    obtain ⟨n', ran, c₁, first, hn'⟩ := updateNode_ok actions n c hn
    obtain ⟨rest', more, c₂, others, hr'⟩ := updateNodes_ok actions rest c₁ hr
    exact ⟨n' :: rest', ran ++ more, c₂, updateNodes_cons first others, hn', hr'⟩

end

/-! ## Runs -/

/-- The trees that a template has rendered, in whatever contexts, with any of their parts run
again since then. -/
inductive Rendered (t : Template) : List Node → Prop
  | render (c : Context) : Rendered t (t.render c).1
  | update {nodes nodes' : List Node} {actions ran : List ActionId} {c c' : Context} :
    Rendered t nodes → t.updateNodes actions nodes c = (.ok (nodes', ran), c') → Rendered t nodes'

theorem Rendered.anchored {items : List Item} (hl : t.program.LaidOut items) {nodes : List Node}
    (h : t.Rendered nodes) : Nodes.Anchored t.program nodes := by
  induction h with
  | render c =>
    rw [render_eq hl]
    exact Items.render_anchored items .start [] (t.prepare c) hl.hosted
  | @update nodes nodes' actions ran c c' _ hu ih =>
    obtain ⟨nodes', ran, c', run, hn⟩ := updateNodes_ok actions nodes c ih
    cases hu.symm.trans run
    exact hn

end Template

/-- A source that compiles gives a well-formed program. Running it ends with a tree, and so does
running parts of a tree again that it rendered: none of the ways to be stuck is ever met. -/
theorem compile_never_stuck {knows : String → Bool} {source : String} {program : Program}
    (h : (compile knows source).program = .ok program) :
    program.WellFormed ∧ ∀ t : Template, t.program = program →
      (∀ c, ∃ nodes c', t.runAll c = (.ok nodes, c')) ∧
      ∀ nodes, t.Rendered nodes → ∀ actions c, ∃ updated c',
        t.updateNodes actions nodes c = (.ok updated, c') := by
  obtain ⟨items, -, hl⟩ := (compile_refines knows source).ok h
  refine ⟨hl.wellFormed (compile_sound h), ?_⟩
  rintro t rfl
  refine ⟨fun c => ⟨_, _, Template.runAll_eq hl c⟩, fun nodes hn actions c => ?_⟩
  obtain ⟨nodes', ran, c', run, -⟩ := Template.updateNodes_ok actions nodes c (hn.anchored hl)
  exact ⟨_, c', run⟩

/-- A loop over elements with a dynamic attribute, and a conditional inside. -/
theorem compile_never_stuck_list :
    let source := "<ul>\x7b#each xs as x\x7d<li class=\x7bx.kind\x7d>\x7b#if x.done\x7d\x7bx.name\x7d\x7b:else\x7d<br>\x7b/if\x7d</li>\x7b/each\x7d</ul>"
    ∃ program, (compile (fun _ => false) source).program = .ok program ∧
      program.WellFormed ∧ ∀ t : Template, t.program = program →
        (∀ c, ∃ nodes c', t.runAll c = (.ok nodes, c')) ∧
        ∀ nodes, t.Rendered nodes → ∀ actions c, ∃ updated c',
          t.updateNodes actions nodes c = (.ok updated, c') := by
  intro source
  have compiles : (compile (fun _ => false) source).program.isOk = true := by decide +kernel
  rcases h : (compile (fun _ => false) source).program with fault | program
  · rw [h] at compiles
    cases compiles
  · exact ⟨program, rfl, compile_never_stuck h⟩

end LiveTemplate
