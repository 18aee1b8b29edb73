/-
What an outline shows in a context that stays as it is. Where the expressions of a template are
plain, it makes no difference when they are evaluated, so the tree is a function of the values in
the context: the view. Rendering gives nodes like those of the view.
-/
import LiveTemplate.Proofs.Program.Placement
import LiveTemplate.Proofs.Render.Meaning
import LiveTemplate.Proofs.Render.Steady

namespace LiveTemplate

/-! ## Attributes of different names -/

/-- The attribute that an instruction adds to the element that is open. -/
def Instr.attribute? : Instr → Option String
  | setAttribute name _ | setFlag name | setAttributeExpr name _ _ => some name
  | _ => none

/-- No element is given an attribute twice: between two instructions that add an attribute of one
name another element starts. -/
def Program.DistinctAttributes (program : Program) : Prop :=
  ∀ (i j : Nat) (a b : Instr) (name : String), i < j → program.instrs[i]? = some a →
    program.instrs[j]? = some b → a.attribute? = some name → b.attribute? = some name →
    ∃ k tag key, i < k ∧ k < j ∧ program.instrs[k]? = some (.createElement tag key)

/-- The attribute that a feature is. -/
def Feature.name? : Feature → Option String
  | plain name _ | flag name | dynamic name _ => some name
  | listener .. => none

theorem Feature.names_cons (f : Feature) (rest : List Feature) :
    (f :: rest).filterMap Feature.name? = f.name?.toList ++ rest.filterMap Feature.name? := by
  rcases hname : f.name? with _ | name
  · rw [List.filterMap_cons_none hname]
    rfl
  · rw [List.filterMap_cons_some hname]
    rfl

namespace Features

variable {program : Program}

/-- An attribute among the features stands in the code, and no element starts before it. -/
theorem Hosted.find {name : String} : ∀ {features : List Feature} {p : Place},
    Features.Hosted program p features → name ∈ features.filterMap Feature.name? →
    ∃ j b, p.pc ≤ j ∧ program.instrs[j]? = some b ∧ b.attribute? = some name ∧
      ∀ k, p.pc ≤ k → k < j → ∀ tag key, program.instrs[k]? ≠ some (.createElement tag key)
  | [], _, _, hn => absurd hn List.not_mem_nil
  | f :: rest, p, h, hn => by
    obtain ⟨hi, -, hr⟩ := h.cons
    have here : (f.instr p).attribute? = f.name? := by cases f <;> rfl
    have room : (p + f.room).pc = p.pc + 1 := by cases f <;> rfl
    by_cases hf : f.name? = some name
    · exact ⟨p.pc, f.instr p, Nat.le_refl _, hi, here.trans hf, fun k hk hlt => by omega⟩
    · have hn' : name ∈ rest.filterMap Feature.name? := by
        rw [Feature.names_cons] at hn
        exact (List.mem_append.1 hn).resolve_left fun hm => hf (Option.mem_toList.1 hm)
      obtain ⟨j, b, hle, hb, hname, between⟩ := hr.find hn'
      rw [room] at hle between
      refine ⟨j, b, by omega, hb, hname, fun k hk hlt tag key => ?_⟩
      rcases Nat.lt_or_ge p.pc k with hpk | hpk
      · exact between k hpk hlt tag key
      · obtain rfl : k = p.pc := by omega
        rw [hi]
        cases f <;> simp [Feature.instr]

theorem Hosted.names_nodup (hd : program.DistinctAttributes) :
    ∀ {features : List Feature} {p : Place}, Features.Hosted program p features →
      (features.filterMap Feature.name?).Nodup
  | [], _, _ => List.nodup_nil
  | f :: rest, p, h => by
    obtain ⟨hi, -, hr⟩ := h.cons
    have here : (f.instr p).attribute? = f.name? := by cases f <;> rfl
    have room : (p + f.room).pc = p.pc + 1 := by cases f <;> rfl
    rcases hname : f.name? with _ | name
    · rw [List.filterMap_cons_none hname]
      exact hr.names_nodup hd
    · rw [List.filterMap_cons_some hname]
      refine List.nodup_cons.2 ⟨fun hn => ?_, hr.names_nodup hd⟩
      obtain ⟨j, b, hle, hb, hbn, between⟩ := hr.find hn
      rw [room] at hle between
      obtain ⟨k, tag, key, hk, hlt, hc⟩ :=
        hd p.pc j (f.instr p) b name (by omega) hi hb (here.trans hname) hbn
      exact between k hk hlt tag key hc

end Features

/-! ## Views -/

section

variable (t : Template) (c : Context)

def Feature.attrs (scope : Scope) : Feature → List (String × Option String)
  | plain name value => [(name, some value)]
  | flag name => [(name, none)]
  | dynamic name e => ((t.value? c scope e).bind Template.attributeOf).toList.map (name, ·)
  | listener .. => []

def Feature.events (scope : Scope) : Feature → List EventBinding
  | listener event handler => [⟨event, handler.shown scope⟩]
  | _ => []

def Feature.bindings (p : Place) (scope : Scope) : Feature → List AttributeBinding
  | dynamic .. => [⟨p.action, p.pc, scope⟩]
  | _ => []

def Features.bindings (p : Place) (scope : Scope) : List Feature → List AttributeBinding
  | [] => []
  | f :: rest => f.bindings p scope ++ Features.bindings (p + f.room) scope rest

/-- An element with attributes and listeners added to it. -/
def Element.featured (p : Place) (scope : Scope) (e : Element) (features : List Feature) : Element :=
  { e with
    attrs := e.attrs ++ features.flatMap (Feature.attrs t c scope)
    events := e.events ++ features.flatMap (Feature.events scope)
    bindings := e.bindings ++ Features.bindings p scope features }

mutual

/-- The node of a part at a place. -/
def Item.view (p : Place) (scope : Scope) : Item → Node
  | .text s => .html s
  | .element tag key features children =>
    .element (.featured t c (p + .one) scope (.plain tag key) features)
      (Items.view (p + (.one + Features.room features)) scope children)
  | .block b => .block ⟨p.action, p.pc, b.stop p, scope⟩ (b.view p scope)

def Items.view (p : Place) (scope : Scope) : List Item → List Node
  | [] => []
  | i :: rest => i.view p scope :: Items.view (p + i.room) scope rest

def Block.view (p : Place) (scope : Scope) : Block → List Node
  | .emit e mode => (t.value? c scope e).elim [] mode.nodes
  | .chain clauses => clauses.view (p + .acting) scope
  | .loop binding collection body =>
    (((t.value? c scope collection).bind loopItems?).getD []).flatMap fun item =>
      Items.view (p + (.acting + .one)) (scope ++ binding.bind item) body

def Clauses.view (p : Place) (scope : Scope) : Clauses → List Node
  | .done => []
  | .otherwise body => Items.view p scope body
  | .clause test negate body rest =>
    match (t.value? c scope test).map (·.truthy != negate) with
    | some true => Items.view (p + .one) scope body
    | some false => rest.view (Clauses.next p body rest) scope
    | none => []

end

end

variable {t : Template} {c c₀ : Context} {scope scope₀ : Scope}

/-! ## Rendering elements -/

theorem Element.setIn_fresh {name : String} {value : Option (Option String)} :
    ∀ {attrs : List (String × Option String)}, name ∉ attrs.map (·.1) →
      setIn name value attrs = attrs ++ value.toList.map (name, ·)
  | [], _ => rfl
  | (n, v) :: rest, h => by
    obtain ⟨hn, hr⟩ := not_or.1 (mt List.mem_cons.2 h)
    unfold setIn
    rw [if_neg (Ne.symm hn), setIn_fresh hr, List.cons_append]

/-- The names of the attributes that a feature gives. -/
theorem Feature.attrs_names (f : Feature) :
    ((f.attrs t c scope).map (·.1)).Sublist f.name?.toList := by
  cases f with
  | dynamic name e =>
    simp only [attrs, name?]
    rcases (t.value? c scope e).bind Template.attributeOf with _ | value
    · exact List.nil_sublist _
    · exact List.Sublist.refl _
  | _ => exact List.Sublist.refl _

theorem Element.featured_cons (p : Place) (e : Element) (f : Feature) (rest : List Feature) :
    e.featured t c p scope (f :: rest) =
      (e.featured t c p scope [f]).featured t c (p + f.room) scope rest := by
  simp only [featured, Features.bindings, List.flatMap_cons, List.flatMap_nil, List.append_nil,
    List.append_assoc]

theorem Feature.render_eq (hp : t.Plain) (f : Feature) {p : Place} {e : Element}
    (hi : t.program.instrs[p.pc]? = some (f.instr p))
    (fresh : ∀ name, f.name? = some name → name ∉ e.attrs.map (·.1)) (hc : c.Like c₀)
    (hs : Scope.Like scope scope₀) :
    c.Keeps (f.render t p scope e c).2 ∧
      ∃ events, List.Forall₂ EventBinding.Like events (f.events scope₀) ∧
        (f.render t p scope e c).1 =
          { e with
            attrs := e.attrs ++ f.attrs t c₀ scope₀
            events := e.events ++ events
            bindings := e.bindings ++ f.bindings p scope } := by
  cases f with
  | plain name value | flag name =>
    refine ⟨.refl c, [], .nil, ?_⟩
    simp only [Feature.bindings, List.append_nil]
    rfl
  | dynamic name expr =>
    have plain : expr.Plain t.functions := hp.expr hi (List.mem_singleton.2 rfl)
    have value : (t.attributeValue scope expr p.action c).1 =
        (t.value? c₀ scope₀ expr).bind Template.attributeOf := by
      rw [(t.attributeValue_follows scope expr p.action).result, Template.attribute_congr plain (hc.agreeOn _) hs]
    refine ⟨(t.attributeValue_follows scope expr p.action).keeps plain c, [], .nil, ?_⟩
    show ({ e.setAttr name (t.attributeValue scope expr p.action c).1 with
      bindings := e.bindings ++ [⟨p.action, p.pc, scope⟩] } : Element) = _
    rw [value, Element.setAttr, Element.setIn_fresh (fresh name rfl), List.append_nil]
    rfl
  | listener event handler =>
    obtain ⟨like, keeps⟩ := handler.attach_shown scope c
    rw [handler.shown_congr hs] at like
    refine ⟨keeps, [⟨event, (handler.attach scope c).1⟩], .cons ⟨rfl, like⟩ .nil, ?_⟩
    simp only [Feature.bindings, Feature.attrs, List.append_nil]
    rfl

theorem Feature.events_congr (hs : Scope.Like scope scope₀) (f : Feature) :
    f.events scope = f.events scope₀ := by
  cases f with
  | listener event handler => rw [events, events, handler.shown_congr hs]
  | _ => rfl

theorem Feature.bindings_like (p : Place) (hs : Scope.Like scope scope₀) (f : Feature) :
    List.Forall₂ AttributeBinding.Like (f.bindings p scope) (f.bindings p scope₀) := by
  cases f with
  | dynamic name e => exact .cons ⟨rfl, rfl, hs⟩ .nil
  | _ => exact .nil

/-- The attributes and listeners of an element come out as in the view, if their names differ. -/
theorem Features.render_like (hp : t.Plain) (hs : Scope.Like scope scope₀) :
    ∀ (features : List Feature) (p : Place) (e e₀ : Element) (c : Context),
      Features.Hosted t.program p features →
      (e₀.attrs.map (·.1) ++ features.filterMap Feature.name?).Nodup → e.Like e₀ → c.Like c₀ →
      (Features.render t p scope e features c).1.Like (e₀.featured t c₀ p scope₀ features) ∧
        c.Keeps (Features.render t p scope e features c).2
  | [], _, e, e₀, c, _, _, he, _ => by
    refine ⟨?_, .refl c⟩
    unfold Element.featured
    rw [Features.bindings, List.flatMap_nil, List.flatMap_nil, List.append_nil, List.append_nil,
      List.append_nil]
    exact he
  | f :: rest, p, e, e₀, c, h, hn, he, hc => by
    obtain ⟨hi, -, hr⟩ := h.cons
    have names : (e.attrs.map (·.1)).Perm (e₀.attrs.map (·.1)) := he.attrs.map _
    have fresh : ∀ name, f.name? = some name → name ∉ e.attrs.map (·.1) := by
      intro name hname hm
      rw [List.filterMap_cons_some hname] at hn
      exact (List.nodup_append.1 hn).2.2 name (names.mem_iff.1 hm) name List.mem_cons_self rfl
    obtain ⟨keeps, events, hev, first⟩ := f.render_eq hp hi fresh hc hs
    have like : (f.render t p scope e c).1.Like (e₀.featured t c₀ p scope₀ [f]) := by
      rw [first]
      unfold Element.featured
      rw [Features.bindings, Features.bindings, List.flatMap_singleton, List.flatMap_singleton,
        List.append_nil]
      exact ⟨he.tag, he.key, he.attrs.append_right _, List.rel_append he.events hev,
        List.rel_append he.bindings (f.bindings_like p hs)⟩
    have hn' : ((e₀.featured t c₀ p scope₀ [f]).attrs.map (·.1)
        ++ rest.filterMap Feature.name?).Nodup := by
      rw [Feature.names_cons, ← List.append_assoc] at hn
      refine hn.sublist (List.Sublist.append_right ?_ _)
      unfold Element.featured
      rw [List.flatMap_singleton, List.map_append]
      exact f.attrs_names.append_left _
    obtain ⟨others, keeps'⟩ := Features.render_like hp hs rest (p + f.room) _ _ _ hr hn' like
      (keeps.like hc)
    rw [Element.featured_cons]
    exact ⟨others, keeps.trans keeps'⟩

/-! ## Rendering trees -/

/-- The rounds of two loops over like items. -/
theorem mapM_like {f : LoopItem → StateM Context (List Node)} {g : LoopItem → List Node}
    (h : ∀ x y c, x.Like y → c.Like c₀ → Nodes.Like (f x c).1 (g y) ∧ c.Keeps (f x c).2) :
    ∀ {xs ys : List LoopItem} {c : Context}, List.Forall₂ LoopItem.Like xs ys → c.Like c₀ →
      Nodes.Like (xs.mapM f c).1.flatten (ys.flatMap g) ∧ c.Keeps (xs.mapM f c).2
  | _, _, c, .nil, _ => ⟨trivial, .refl c⟩
  | x :: xs, y :: ys, c, .cons hxy hr, hc => by
    obtain ⟨first, keeps⟩ := h x y c hxy hc
    obtain ⟨others, keeps'⟩ := mapM_like h hr (keeps.like hc)
    rw [List.mapM_cons, List.flatMap_cons]
    exact ⟨first.append others, keeps.trans keeps'⟩

mutual

/-- Rendering a part gives a node like that of the view, and writes nothing. -/
theorem Item.render_like (hp : t.Plain) (hd : t.program.DistinctAttributes) :
    ∀ (i : Item) (p : Place) (scope scope₀ : Scope) (c : Context), i.Hosted t.program p →
      Scope.Like scope scope₀ → c.Like c₀ →
      (i.render t p scope c).1.Like (i.view t c₀ p scope₀) ∧ c.Keeps (i.render t p scope c).2
  | .text _, _, _, _, c, _, _, _ => ⟨rfl, .refl c⟩
  | .element tag key features children, p, scope, scope₀, c, h, hs, hc => by
    obtain ⟨-, hf, hch, -⟩ := h.element
    obtain ⟨element, keeps⟩ := Features.render_like hp hs features (p + .one) (.plain tag key)
      (.plain tag key) c hf (hf.names_nodup hd) (.refl _) hc
    obtain ⟨inside, keeps'⟩ := Items.render_like hp hd children _ scope scope₀ _ hch hs
      (keeps.like hc)
    exact ⟨⟨element, inside⟩, keeps.trans keeps'⟩
  | .block b, p, scope, scope₀, c, h, hs, hc => by
    obtain ⟨inside, keeps⟩ := Block.render_like hp hd b p scope scope₀ c h hs hc
    refine ⟨⟨?_, inside⟩, keeps⟩
    rw [b.render_anchor]
    exact ⟨rfl, rfl, rfl, hs⟩

theorem Items.render_like (hp : t.Plain) (hd : t.program.DistinctAttributes) :
    ∀ (items : List Item) (p : Place) (scope scope₀ : Scope) (c : Context),
      Items.Hosted t.program p items → Scope.Like scope scope₀ → c.Like c₀ →
      Nodes.Like (Items.render t p scope items c).1 (Items.view t c₀ p scope₀ items) ∧
        c.Keeps (Items.render t p scope items c).2
  | [], _, _, _, c, _, _, _ => ⟨trivial, .refl c⟩
  | i :: rest, p, scope, scope₀, c, h, hs, hc => by
    obtain ⟨hi, hr⟩ := h.cons
    obtain ⟨first, keeps⟩ := Item.render_like hp hd i p scope scope₀ c hi hs hc
    obtain ⟨others, keeps'⟩ := Items.render_like hp hd rest (p + i.room) scope scope₀ _ hr hs
      (keeps.like hc)
    exact ⟨⟨first, others⟩, keeps.trans keeps'⟩

theorem Block.render_like (hp : t.Plain) (hd : t.program.DistinctAttributes) :
    ∀ (b : Block) (p : Place) (scope scope₀ : Scope) (c : Context), b.Hosted t.program p →
      Scope.Like scope scope₀ → c.Like c₀ →
      Nodes.Like (b.render t p scope c).1.2 (b.view t c₀ p scope₀) ∧
        c.Keeps (b.render t p scope c).2
  | .emit e mode, p, scope, scope₀, c, h, hs, hc => by
    have plain : e.Plain t.functions := hp.expr h.emit.1 (List.mem_singleton.2 rfl)
    refine ⟨?_, (t.emitted_follows scope e mode p.action).keeps plain c⟩
    show Nodes.Like (t.emitted scope e mode p.action c).1 _
    rw [(t.emitted_follows scope e mode p.action).result,
      Template.emitted_congr plain (hc.agreeOn _) hs]
    exact .refl _
  | .chain clauses, p, scope, scope₀, c, h, hs, hc => by
    obtain ⟨-, -, hcl, -⟩ := h.chain
    exact Clauses.render_like hp hd clauses (p + .acting) _ p.action scope scope₀ c hcl hs hc
  | .loop binding collection body, p, scope, scope₀, c, h, hs, hc => by
    obtain ⟨hi, -, -, hb, -, -⟩ := h.loop
    have plain : collection.Plain t.functions := hp.expr hi (List.mem_singleton.2 rfl)
    have keeps := (t.items_follows scope collection p.action).keeps plain c
    have items := Template.items_like plain (hc.agreeOn _) hs
    rw [← (t.items_follows scope collection p.action).result] at items
    obtain ⟨rounds, keeps'⟩ := mapM_like
      (fun x y c hxy hc => Items.render_like hp hd body (p + (.acting + .one))
        (scope ++ binding.bind x) (scope₀ ++ binding.bind y) c hb
        (List.rel_append hs (binding.bind_like hxy)) hc) items (keeps.like hc)
    exact ⟨rounds, keeps.trans keeps'⟩

theorem Clauses.render_like (hp : t.Plain) (hd : t.program.DistinctAttributes) :
    ∀ (clauses : Clauses) (p : Place) (stop : Nat) (action : ActionId) (scope scope₀ : Scope)
      (c : Context), clauses.Hosted t.program p stop → Scope.Like scope scope₀ → c.Like c₀ →
      Nodes.Like (clauses.render t action p scope c).1 (clauses.view t c₀ p scope₀) ∧
        c.Keeps (clauses.render t action p scope c).2
  | .done, _, _, _, _, _, c, _, _, _ => ⟨trivial, .refl c⟩
  | .otherwise body, p, _, _, scope, scope₀, c, h, hs, hc =>
    Items.render_like hp hd body p scope scope₀ c h hs hc
  | .clause test negate body rest, p, stop, action, scope, scope₀, c, h, hs, hc => by
    obtain ⟨hi, hb, -, hr⟩ := h.clause
    have plain : test.Plain t.functions := hp.expr hi (List.mem_singleton.2 rfl)
    have keeps := (t.test_follows scope test negate action).keeps plain c
    have tested := (t.test_follows scope test negate action).result c
    rw [Template.test_congr plain (hc.agreeOn _) hs] at tested
    have hc' := keeps.like hc
    rw [Clauses.render_clause, Clauses.view, ← tested]
    generalize t.test scope test negate action c = result at keeps hc' ⊢
    rcases result with ⟨_ | _ | _, c'⟩
    · exact ⟨trivial, keeps⟩
    · obtain ⟨like, keeps'⟩ := Clauses.render_like hp hd rest _ stop action scope scope₀ c' hr hs hc'
      exact ⟨like, keeps.trans keeps'⟩
    · obtain ⟨like, keeps'⟩ := Items.render_like hp hd body (p + .one) scope scope₀ c' hb hs hc'
      exact ⟨like, keeps.trans keeps'⟩

end

end LiveTemplate
