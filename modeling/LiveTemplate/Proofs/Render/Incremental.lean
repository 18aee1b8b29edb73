/-
Updates give what rendering anew would give. Take nodes that are like the view of an outline in one
context, and another context such that every action that is not run again agrees on what it reads.
Then running the other actions again, outermost blocks and attributes, gives nodes like the view in
the other context. The induction is over the outline; a block that is not run again still has the
same clause chosen, or the same number of rounds with like items, so that its parts correspond.
-/
import LiveTemplate.Proofs.Render.Safety
import LiveTemplate.Proofs.Render.View

namespace LiveTemplate

variable {t : Template} {actions : List ActionId} {c c₀ c₁ : Context} {scope₀ scope₁ : Scope}

/-- Actions that are not among the given ones agree on what they read. -/
def Template.Covers (t : Template) (actions : List ActionId) (c₀ c₁ : Context) : Prop :=
  ∀ action reads, t.program.reads? action = some reads → action ∉ actions → c₀.AgreeOn reads c₁

/-! ## Attributes -/

namespace Element

theorem filter_other {name : String} {attrs : List (String × Option String)}
    (h : name ∉ attrs.map (·.1)) : attrs.filter (·.1 != name) = attrs := by
  refine List.filter_eq_self.2 fun a ha => bne_iff_ne.2 fun he => h ?_
  rw [← he]
  exact List.mem_map_of_mem ha

theorem setIn_perm {name : String} {value : Option (Option String)} :
    ∀ {attrs : List (String × Option String)}, (attrs.map (·.1)).Nodup →
      (setIn name value attrs).Perm
        (value.toList.map (name, ·) ++ attrs.filter (·.1 != name))
  | [], _ => by
    unfold setIn
    simp
  | (n, v) :: rest, h => by
    obtain ⟨hn, hr⟩ := List.nodup_cons.1 h
    unfold setIn
    by_cases hname : n = name
    · subst hname
      rw [if_pos rfl, List.filter_cons_of_neg (by simp), filter_other hn]
      rcases value with _ | value
      · exact .refl _
      · exact .refl _
    · rw [if_neg hname, List.filter_cons_of_pos (by simpa using hname)]
      exact ((setIn_perm hr).cons (n, v)).trans List.perm_middle.symm

/-- Setting an attribute among others of different names changes it and no other. -/
theorem setIn_among {name : String} {old new : Option (Option String)}
    {attrs done others : List (String × Option String)}
    (h : attrs.Perm (done ++ (old.toList.map (name, ·) ++ others)))
    (hn : (done.map (·.1) ++ name :: others.map (·.1)).Nodup) :
    (setIn name new attrs).Perm (done ++ (new.toList.map (name, ·) ++ others)) := by
  obtain ⟨-, hno, hdo⟩ := List.nodup_append.1 hn
  have hd : name ∉ done.map (·.1) := fun hm => hdo name hm name List.mem_cons_self rfl
  have ho : name ∉ others.map (·.1) := (List.nodup_cons.1 hno).1
  have nodup : (attrs.map (·.1)).Nodup := by
    refine (h.map (·.1)).nodup_iff.2 (hn.sublist ?_)
    rw [List.map_append, List.map_append]
    refine List.Sublist.append_left ?_ _
    rcases old with _ | old
    · exact List.sublist_cons_self _ _
    · exact List.Sublist.refl _
  have gone : (old.toList.map (name, ·)).filter (·.1 != name) = [] := by
    rcases old with _ | old
    · rfl
    · simp
  have rest : (attrs.filter (·.1 != name)).Perm (done ++ others) := by
    have filtered := h.filter (·.1 != name)
    rwa [List.filter_append, List.filter_append, gone, List.nil_append, filter_other hd,
      filter_other ho] at filtered
  calc (setIn name new attrs).Perm (new.toList.map (name, ·) ++ attrs.filter (·.1 != name)) :=
        setIn_perm nodup
    List.Perm _ (new.toList.map (name, ·) ++ (done ++ others)) := rest.append_left _
    List.Perm _ (done ++ (new.toList.map (name, ·) ++ others)) := by
      rw [← List.append_assoc, ← List.append_assoc]
      exact List.perm_append_comm.append_right _

end Element

theorem Features.attrs_names : ∀ features : List Feature,
    ((features.flatMap (Feature.attrs t c scope₀)).map (·.1)).Sublist
      (features.filterMap Feature.name?)
  | [] => List.Sublist.refl _
  | f :: rest => by
    rw [List.flatMap_cons, List.map_append, Feature.names_cons]
    exact f.attrs_names.append (Features.attrs_names rest)

/-- Evaluating the concerned attributes of an element again gives the attributes of the view. -/
theorem Template.updateAttributes_like (hp : t.Plain) (hu : t.Covers actions c₀ c₁)
    (hs : Scope.Like scope₀ scope₁) :
    ∀ (features : List Feature) (p : Place) (bindings : List AttributeBinding) (e : Element)
      (done : List (String × Option String)) (c : Context),
      Features.Hosted t.program p features →
      List.Forall₂ AttributeBinding.Like bindings (Features.bindings p scope₀ features) →
      (done.map (·.1) ++ features.filterMap Feature.name?).Nodup →
      e.attrs.Perm (done ++ features.flatMap (Feature.attrs t c₀ scope₀)) → c.Like c₁ →
      ∃ attrs ran c', t.updateAttributes actions bindings e c = (.ok ({ e with attrs }, ran), c') ∧
        c.Keeps c' ∧ attrs.Perm (done ++ features.flatMap (Feature.attrs t c₁ scope₁))
  | [], _, bindings, e, done, c, _, hb, _, he, _ => by
    cases hb
    exact ⟨e.attrs, [], c, rfl, .refl c, he⟩
  -- `done` is what the features before this one have set, so it is already as in `c₁`.
  | f :: rest, p, bindings, e, done, c, h, hb, hn, he, hc => by
    obtain ⟨hi, hreads, hr⟩ := h.cons
    have hn' : ((done ++ f.attrs t c₁ scope₁).map (·.1) ++ rest.filterMap Feature.name?).Nodup := by
      rw [Feature.names_cons, ← List.append_assoc] at hn
      refine hn.sublist (List.Sublist.append_right ?_ _)
      rw [List.map_append]
      exact f.attrs_names.append_left _
    rw [List.flatMap_cons] at he ⊢
    rw [← List.append_assoc]
    cases f with
    | dynamic name expr =>
      have plain : expr.Plain t.functions := hp.expr hi (List.mem_singleton.2 rfl)
      obtain ⟨b, rest', hb₁, hbr, rfl⟩ := List.forall₂_cons_right_iff.1 hb
      by_cases again : b.action ∈ actions
      · have value : (t.attributeValue b.scope expr p.action c).1 =
            (t.value? c₁ scope₁ expr).bind attributeOf := by
          rw [(t.attributeValue_follows b.scope expr p.action).result,
            attribute_congr plain (hc.agreeOn _) (Scope.Like.trans hb₁.scope hs)]
        have keeps := (t.attributeValue_follows b.scope expr p.action).keeps plain c
        have names : (done.map (·.1) ++ name ::
            (rest.flatMap (Feature.attrs t c₀ scope₀)).map (·.1)).Nodup :=
          hn.sublist (List.Sublist.append_left ((Features.attrs_names rest).cons_cons name) _)
        have set : (e.setAttr name (t.attributeValue b.scope expr p.action c).1).attrs.Perm
            (done ++ (Feature.dynamic name expr).attrs t c₁ scope₁
              ++ rest.flatMap (Feature.attrs t c₀ scope₀)) := by
          rw [value, List.append_assoc]
          exact Element.setIn_among he names
        obtain ⟨attrs, ran, c', run, keeps', perm⟩ := updateAttributes_like hp hu hs rest
          (p + Place.acting) rest' _ _ _ hr hbr hn' set (keeps.like hc)
        have hb₂ : t.program.instrs[b.pc]? = some (.setAttributeExpr name expr p.action) := by
          rw [hb₁.pc]
          exact hi
        exact ⟨attrs, b.action :: ran, c', updateAttributes_again again hb₂ run,
          keeps.trans keeps', perm⟩
      · have same : (Feature.dynamic name expr).attrs t c₀ scope₀ =
            (Feature.dynamic name expr).attrs t c₁ scope₁ := by
          rw [show b.action = p.action from hb₁.action] at again
          have agree := hu p.action expr.reads (hreads name expr rfl) again
          rw [Feature.attrs, Feature.attrs, attribute_congr plain agree hs]
        rw [same, ← List.append_assoc] at he
        rw [updateAttributes_pass again]
        exact updateAttributes_like hp hu hs rest (p + Place.acting) rest' e _ c hr hbr hn' he hc
    | _ =>
      rw [← List.append_assoc] at he
      exact updateAttributes_like hp hu hs rest (p + Place.one) bindings e _ c hr hb hn' he hc

theorem Features.bindings_like (hs : Scope.Like scope₀ scope₁) :
    ∀ (features : List Feature) (p : Place), List.Forall₂ AttributeBinding.Like
      (Features.bindings p scope₀ features) (Features.bindings p scope₁ features)
  | [], _ => .nil
  | f :: rest, p =>
    List.rel_append (f.bindings_like p hs) (Features.bindings_like hs rest (p + f.room))

/-! ## Trees -/

namespace Template

/-- An update that goes well and writes nothing; what it gives is as stated. -/
def Gives {α : Type} (m : Run (α × List ActionId)) (c : Context) (P : α → Prop) : Prop :=
  ∃ a ran c', m c = (.ok (a, ran), c') ∧ c.Keeps c' ∧ P a

theorem updateNodes_append (actions : List ActionId) (b : List Node) : ∀ a : List Node,
    t.updateNodes actions (a ++ b) = do
      let (a, ran) ← t.updateNodes actions a
      let (b, more) ← t.updateNodes actions b
      return (a ++ b, ran ++ more) := by
  intro a
  induction a with
  | nil => simp [updateNodesIn]
  | cons n rest ih =>
    rw [updateNodes, updateNodes] at ih
    simp [updateNodesIn, ih, bind_assoc, List.append_assoc]

/-- The rounds of a loop correspond where the items do. -/
theorem gives_rounds {g g' : LoopItem → List Node}
    (h : ∀ x y nodes c, x.Like y → Nodes.Like nodes (g x) → c.Like c₁ →
      Gives (t.updateNodes actions nodes) c (Nodes.Like · (g' y))) :
    ∀ {xs ys : List LoopItem} {nodes : List Node} {c : Context},
      List.Forall₂ LoopItem.Like xs ys → Nodes.Like nodes (xs.flatMap g) → c.Like c₁ →
      Gives (t.updateNodes actions nodes) c (Nodes.Like · (ys.flatMap g')) := by
  intro xs ys nodes c related
  induction related generalizing nodes c with
  | nil =>
    intro hn _
    cases nodes with
    | nil => exact ⟨[], [], c, rfl, .refl c, trivial⟩
    | cons n rest => exact False.elim hn
  | @cons x y xs ys hxy hr ih =>
    intro hn hc
    rw [List.flatMap_cons] at hn
    obtain ⟨first, others, rfl, hf, ho⟩ := hn.split
    obtain ⟨a, ran, c', run, keeps, like⟩ := h x y first c hxy hf hc
    obtain ⟨b, more, c'', run', keeps', like'⟩ := ih ho (keeps.like hc)
    refine ⟨a ++ b, ran ++ more, c'', ?_, keeps.trans keeps', ?_⟩
    · rw [updateNodes_append, stateful_bind_ok run]
      show (t.updateNodes actions others >>= _) c' = _
      rw [stateful_bind_ok run']
      rfl
    · rw [List.flatMap_cons]
      exact like.append like'

theorem releaseAll_keeps (nodes : List Node) (c : Context) : c.Keeps (releaseAll nodes c).2 :=
  ⟨⟨c.state.supply, rfl⟩, rfl, rfl⟩

/-- The tests of a conditional read no more than the conditional. -/
theorem agreeOn_tests {tests : List Expr} (h : c₀.AgreeOn (testReads tests) c₁) :
    ∀ e ∈ tests, c₀.AgreeOn e.reads c₁ := by
  have fold : ∀ (rest : List Expr) (reads : Reads),
      c₀.AgreeOn (rest.foldl (fun reads e => reads.union e.reads) reads) c₁ →
        c₀.AgreeOn reads c₁ ∧ ∀ e ∈ rest, c₀.AgreeOn e.reads c₁ := by
    intro rest
    induction rest with
    | nil => exact fun _ h => ⟨h, fun _ he => absurd he List.not_mem_nil⟩
    | cons e rest ih =>
      intro reads h
      obtain ⟨hu, hr⟩ := ih _ h
      exact ⟨⟨hu.state.left, hu.props⟩, List.forall_mem_cons.2 ⟨⟨hu.state.right, hu.props⟩, hr⟩⟩
  cases tests with
  | nil => exact fun _ he => absurd he List.not_mem_nil
  | cons e rest => exact List.forall_mem_cons.2 (fold rest e.reads h)

mutual

/-- Bringing the node of a part up to date gives a node like the one that the part has now. -/
theorem updateNode_like (hp : t.Plain) (hd : t.program.DistinctAttributes)
    (hu : t.Covers actions c₀ c₁) :
    ∀ (i : Item) (p : Place) (scope₀ scope₁ : Scope) (n : Node) (c : Context),
      i.Hosted t.program p → Scope.Like scope₀ scope₁ → n.Like (i.view t c₀ p scope₀) →
      c.Like c₁ → Gives (t.updateNode actions n) c (Node.Like · (i.view t c₁ p scope₁))
  | .text s, _, _, _, .html s', c, _, _, h, _ => ⟨.html s', [], c, rfl, .refl c, h⟩
  | .element tag key features children, p, scope₀, scope₁, .element e nodes, c, h, hs, hn, hc => by
    obtain ⟨-, hf, hch, -⟩ := h.element
    obtain ⟨he, hnodes⟩ := hn
    obtain ⟨attrs, ran, c', run, keeps, perm⟩ := updateAttributes_like hp hu hs features
      (p + Place.one) e.bindings e [] c hf he.bindings (hf.names_nodup hd) he.attrs hc
    obtain ⟨nodes', more, c'', run', keeps', like⟩ := updateNodes_like hp hd hu children
      (p + (.one + Features.room features)) scope₀ scope₁ nodes c' hch hs hnodes (keeps.like hc)
    refine ⟨.element { e with attrs } nodes', ran ++ more, c'', updateNode_element run run',
      keeps.trans keeps', ⟨he.tag, he.key, perm, ?_, ?_⟩, like⟩
    · have events := he.events
      rwa [Element.featured, funext (Feature.events_congr hs)] at events
    · exact forall₂_trans he.bindings (Features.bindings_like hs features (p + Place.one))
        fun _ _ _ => AttributeBinding.Like.trans
  | .block b, p, scope₀, scope₁, .block anchor nodes, c, h, hs, hn, hc => by
    obtain ⟨ha, hnodes⟩ := hn
    by_cases again : anchor.action ∈ actions
    · obtain ⟨like, keeps⟩ := Block.render_like hp hd b p anchor.scope scope₁
        (releaseAll nodes c).2 h (Scope.Like.trans ha.scope hs) ((releaseAll_keeps nodes c).like hc)
      refine ⟨_, _, _, updateNode_again h ha.start.symm again nodes c,
        (releaseAll_keeps nodes c).trans keeps, ?_, like⟩
      rw [b.render_anchor]
      exact ⟨rfl, rfl, rfl, Scope.Like.trans ha.scope hs⟩
    · rw [show anchor.action = p.action from ha.action] at again
      obtain ⟨nodes', ran, c', run, keeps, like⟩ :=
        updateBlock_like hp hd hu b p scope₀ scope₁ nodes c h again hs hnodes hc
      rw [← show anchor.action = p.action from ha.action] at again
      exact ⟨.block anchor nodes', ran, c', updateNode_block again run, keeps,
        ⟨ha.action, ha.start, ha.stop, Scope.Like.trans ha.scope hs⟩, like⟩

theorem updateNodes_like (hp : t.Plain) (hd : t.program.DistinctAttributes)
    (hu : t.Covers actions c₀ c₁) :
    ∀ (items : List Item) (p : Place) (scope₀ scope₁ : Scope) (nodes : List Node) (c : Context),
      Items.Hosted t.program p items → Scope.Like scope₀ scope₁ →
      Nodes.Like nodes (Items.view t c₀ p scope₀ items) → c.Like c₁ →
      Gives (t.updateNodes actions nodes) c (Nodes.Like · (Items.view t c₁ p scope₁ items))
  | [], _, _, _, [], c, _, _, _, _ => ⟨[], [], c, rfl, .refl c, trivial⟩
  | i :: rest, p, scope₀, scope₁, n :: nodes, c, h, hs, ⟨hn, hnodes⟩, hc => by
    obtain ⟨hi, hr⟩ := h.cons
    obtain ⟨n', ran, c', run, keeps, like⟩ :=
      updateNode_like hp hd hu i p scope₀ scope₁ n c hi hs hn hc
    obtain ⟨nodes', more, c'', run', keeps', like'⟩ :=
      updateNodes_like hp hd hu rest (p + i.room) scope₀ scope₁ nodes c' hr hs hnodes (keeps.like hc)
    exact ⟨n' :: nodes', ran ++ more, c'', updateNodes_cons run run', keeps.trans keeps', like, like'⟩

/-- The parts of a block that is not run again. -/
theorem updateBlock_like (hp : t.Plain) (hd : t.program.DistinctAttributes)
    (hu : t.Covers actions c₀ c₁) :
    ∀ (b : Block) (p : Place) (scope₀ scope₁ : Scope) (nodes : List Node) (c : Context),
      b.Hosted t.program p → p.action ∉ actions → Scope.Like scope₀ scope₁ →
      Nodes.Like nodes (b.view t c₀ p scope₀) → c.Like c₁ →
      Gives (t.updateNodes actions nodes) c (Nodes.Like · (b.view t c₁ p scope₁))
  | .emit e mode, p, scope₀, scope₁, nodes, c, h, ha, hs, hn, hc => by
    obtain ⟨hi, hr⟩ := h.emit
    have plain : e.Plain t.functions := hp.expr hi (List.mem_singleton.2 rfl)
    rw [Block.view, emitted_congr plain (hu p.action e.reads hr ha) hs] at hn
    refine ⟨nodes, [], c, updateNodes_static c (hn.static ?_), .refl c, hn⟩
    rcases t.value? c₁ scope₁ e with _ | v
    · trivial
    · exact mode.nodes_static v
  | .chain clauses, p, scope₀, scope₁, nodes, c, h, ha, hs, hn, hc => by
    obtain ⟨-, hr, hcl, -⟩ := h.chain
    exact updateClauses_like hp hd hu clauses (p + Place.acting) _ scope₀ scope₁ nodes c hcl
      (agreeOn_tests (hu p.action _ hr ha)) hs hn hc
  | .loop binding collection body, p, scope₀, scope₁, nodes, c, h, ha, hs, hn, hc => by
    obtain ⟨hi, hr, -, hb, -, -⟩ := h.loop
    have plain : collection.Plain t.functions := hp.expr hi (List.mem_singleton.2 rfl)
    have items := items_like plain (hu p.action collection.reads hr ha) hs
    exact gives_rounds (fun x y nodes c hxy hn hc => updateNodes_like hp hd hu body
      (p + (.acting + .one)) (scope₀ ++ binding.bind x) (scope₁ ++ binding.bind y) nodes c hb
      (List.rel_append hs (binding.bind_like hxy)) hn hc) items hn hc

theorem updateClauses_like (hp : t.Plain) (hd : t.program.DistinctAttributes)
    (hu : t.Covers actions c₀ c₁) :
    ∀ (clauses : Clauses) (p : Place) (stop : Nat) (scope₀ scope₁ : Scope) (nodes : List Node)
      (c : Context), clauses.Hosted t.program p stop →
      (∀ e ∈ clauses.tests, c₀.AgreeOn e.reads c₁) → Scope.Like scope₀ scope₁ →
      Nodes.Like nodes (clauses.view t c₀ p scope₀) → c.Like c₁ →
      Gives (t.updateNodes actions nodes) c (Nodes.Like · (clauses.view t c₁ p scope₁))
  | .done, _, _, _, _, [], c, _, _, _, _, _ => ⟨[], [], c, rfl, .refl c, trivial⟩
  | .otherwise body, p, _, scope₀, scope₁, nodes, c, h, _, hs, hn, hc =>
    updateNodes_like hp hd hu body p scope₀ scope₁ nodes c h hs hn hc
  | .clause test negate body rest, p, stop, scope₀, scope₁, nodes, c, h, ha, hs, hn, hc => by
    obtain ⟨hi, hb, -, hr⟩ := h.clause
    rw [Clauses.tests, List.forall_mem_cons] at ha
    have plain : test.Plain t.functions := hp.expr hi (List.mem_singleton.2 rfl)
    rw [Clauses.view, test_congr plain ha.1 hs] at hn
    rw [Clauses.view]
    generalize (t.value? c₁ scope₁ test).map (·.truthy != negate) = choice at hn ⊢
    rcases choice with _ | _ | _
    · cases nodes with
      | nil => exact ⟨[], [], c, rfl, .refl c, trivial⟩
      | cons _ _ => exact hn.elim
    · exact updateClauses_like hp hd hu rest _ stop scope₀ scope₁ nodes c hr ha.2 hs hn hc
    · exact updateNodes_like hp hd hu body (p + .one) scope₀ scope₁ nodes c hb hs hn hc

end

end Template

end LiveTemplate
