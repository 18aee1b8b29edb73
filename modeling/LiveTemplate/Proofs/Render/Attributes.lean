/-
The attributes of an element as updates go over it, against those it would be rendered with. A
render writes the attributes one after the other in the order of the tag; an update changes the
finished list by name. The two agree as long as every attribute that is set again was written
already, since what stands behind it then stays behind it, or was left out and stands behind all
others: one that comes back elsewhere comes back at the end of the list. The invariant over the
updates is that the list is the one that the attributes of the tag give in one pass.
-/
import LiveTemplate.Component
import LiveTemplate.Engine
import LiveTemplate.Proofs.Render.Safety
import LiveTemplate.Proofs.Render.View

namespace LiveTemplate

/-! ## Setting attributes in a list -/

namespace Element

variable {name other : String} {value new : Option (Option String)}
  {attrs more : List (String × Option String)}

theorem mem_setIn (v : Option String) : ∀ {attrs : List (String × Option String)},
    name ∈ (setIn name (some v) attrs).map (·.1)
  | [] => List.mem_singleton.2 rfl
  | (n, w) :: rest => by
    unfold setIn
    by_cases hn : n = name
    · rw [if_pos hn]
      exact List.mem_cons.2 (.inl hn.symm)
    · rw [if_neg hn]
      exact List.mem_cons_of_mem _ (mem_setIn v)

theorem mem_setIn_other (h : other ≠ name) : ∀ {attrs : List (String × Option String)},
    name ∈ attrs.map (·.1) → name ∈ (setIn other value attrs).map (·.1)
  | (n, v) :: rest, hm => by
    unfold setIn
    by_cases hn : n = other
    · have hr : name ∈ rest.map (·.1) := by
        refine (List.mem_cons.1 hm).resolve_left fun he => h ?_
        rw [he, hn]
      rw [if_pos hn]
      cases value with
      | none => exact hr
      | some value => exact List.mem_cons_of_mem _ hr
    · rw [if_neg hn]
      rcases List.mem_cons.1 hm with he | hr
      · exact List.mem_cons.2 (.inl he)
      · exact List.mem_cons_of_mem _ (mem_setIn_other h hr)

/-- What was set is what is set next. -/
theorem setIn_setIn (v : Option String) : ∀ attrs : List (String × Option String),
    setIn name new (setIn name (some v) attrs) = setIn name new attrs
  | [] => by cases new <;> simp [setIn]
  | (n, w) :: rest => by
    by_cases hn : n = name
    · simp only [setIn, if_pos hn]
    · simp only [setIn, if_neg hn, setIn_setIn v rest]

/-- An attribute that is there is set in its place, whatever follows. -/
theorem setIn_append : ∀ {attrs : List (String × Option String)}, name ∈ attrs.map (·.1) →
    setIn name new (attrs ++ more) = setIn name new attrs ++ more
  | (n, v) :: rest, hm => by
    rw [List.cons_append]
    by_cases hn : n = name
    · simp only [setIn, if_pos hn]
      cases new <;> rfl
    · have hr := (List.mem_cons.1 hm).resolve_left (Ne.symm hn)
      simp only [setIn, if_neg hn, setIn_append hr, List.cons_append]

/-- Taking an attribute away concerns no others behind. -/
theorem setIn_none_append (h : name ∉ more.map (·.1)) : ∀ attrs : List (String × Option String),
    setIn name none (attrs ++ more) = setIn name none attrs ++ more
  | [] => by
    rw [List.nil_append, setIn_fresh h]
    exact List.append_nil more
  | (n, v) :: rest => by
    rw [List.cons_append]
    by_cases hn : n = name
    · simp only [setIn, if_pos hn]
    · simp only [setIn, if_neg hn, setIn_none_append h rest, List.cons_append]

/-- An attribute that is there and one of another name can be set in either order. -/
theorem setIn_comm (h : other ≠ name) : ∀ {attrs : List (String × Option String)},
    name ∈ attrs.map (·.1) →
      setIn name new (setIn other value attrs) = setIn other value (setIn name new attrs)
  | (n, v) :: rest, hm => by
    by_cases hn : n = name
    · subst hn
      cases new <;> simp only [setIn, if_pos, if_neg (Ne.symm h)]
    · by_cases ho : n = other
      · cases value <;> simp only [setIn, if_pos ho, if_neg hn]
      · have hr := (List.mem_cons.1 hm).resolve_left (Ne.symm hn)
        simp only [setIn, if_neg hn, if_neg ho, setIn_comm h hr]

end Element

/-! ## The attributes of a tag -/

/-- An attribute of a tag as it was evaluated last. -/
inductive Held where
  | fixed (name : String) (value : Option String)
  | dynamic (name : String) (expr : Expr) (binding : AttributeBinding)
    (value : Option (Option String))

namespace Held

def binding? : Held → Option AttributeBinding
  | fixed .. => none
  | dynamic _ _ binding _ => some binding

/-- Whether an attribute can be set again and has the given name. -/
def decides (name : String) : Held → Bool
  | fixed .. => false
  | dynamic n .. => n == name

/-- Whether an attribute is left out. -/
def isAbsent : Held → Bool
  | fixed .. => false
  | dynamic _ _ _ value => value.isNone

/-- Writes an attribute behind others; a dynamic one stands for an earlier one of its name. -/
def add (attrs : List (String × Option String)) : Held → List (String × Option String)
  | fixed name value => attrs ++ [(name, value)]
  | dynamic name _ _ value => Element.setIn name value attrs

def addAll (attrs : List (String × Option String)) (held : List Held) :
    List (String × Option String) :=
  held.foldl add attrs

/-- The attributes of a tag, written in one pass. -/
def written (held : List Held) : List (String × Option String) := addAll [] held

theorem addAll_append (attrs : List (String × Option String)) (a b : List Held) :
    addAll attrs (a ++ b) = addAll (addAll attrs a) b :=
  List.foldl_append

variable {name : String} {old new : Option (Option String)} {done behind : List Held}
  {attrs : List (String × Option String)}

theorem add_setIn (new : Option (Option String)) {h : Held} (hd : h.decides name = false)
    (hm : name ∈ attrs.map (·.1)) :
    Element.setIn name new (h.add attrs) = h.add (Element.setIn name new attrs) ∧
      name ∈ (h.add attrs).map (·.1) := by
  cases h with
  | fixed n v =>
    refine ⟨Element.setIn_append hm, ?_⟩
    rw [add, List.map_append]
    exact List.mem_append_left _ hm
  | dynamic n e b v =>
    have hn : n ≠ name := by simpa [decides] using hd
    exact ⟨Element.setIn_comm hn hm, Element.mem_setIn_other hn hm⟩

/-- An attribute that is there can be set before or after what follows is written, unless something
that follows decides over it. -/
theorem addAll_setIn : ∀ {behind : List Held} {attrs : List (String × Option String)},
    (∀ h ∈ behind, h.decides name = false) → name ∈ attrs.map (·.1) →
      Element.setIn name new (addAll attrs behind) = addAll (Element.setIn name new attrs) behind
  | [], _, _, _ => rfl
  | h :: rest, attrs, hd, hm => by
    obtain ⟨hh, hr⟩ := List.forall_mem_cons.1 hd
    obtain ⟨first, hm'⟩ := add_setIn new hh hm
    show Element.setIn name new (addAll (h.add attrs) rest) = addAll (h.add _) rest
    rw [addAll_setIn hr hm', first]

/-- Attributes that are left out leave the end of the list as it is. -/
theorem addAll_absent (v : Option String) : ∀ {behind : List Held}
    (attrs : List (String × Option String)), (∀ h ∈ behind, h.decides name = false) →
      (∀ h ∈ behind, h.isAbsent = true) →
      addAll (attrs ++ [(name, v)]) behind = addAll attrs behind ++ [(name, v)]
  | [], _, _, _ => rfl
  | .fixed .. :: _, _, _, ha => by simpa [isAbsent] using ha _ List.mem_cons_self
  | .dynamic n e b (some w) :: _, _, _, ha => by simpa [isAbsent] using ha _ List.mem_cons_self
  | .dynamic n e b none :: rest, attrs, hd, ha => by
    obtain ⟨hh, hr⟩ := List.forall_mem_cons.1 hd
    have hn : n ∉ [(name, v)].map (·.1) := by simpa [decides] using hh
    show addAll (Element.setIn n none (attrs ++ [(name, v)])) rest =
      addAll (Element.setIn n none attrs) rest ++ [(name, v)]
    rw [Element.setIn_none_append hn]
    exact addAll_absent v _ hr (List.forall_mem_cons.1 ha).2

/-- An attribute can be set in the list that was written: `done` is what stands before it in the
tag, `behind` what stands behind it. -/
structure InPlace (done : List Held) (name : String) (old new : Option (Option String))
    (behind : List Held) : Prop where
  /-- No dynamic attribute behind it has its name. -/
  decides : ∀ h ∈ behind, h.decides name = false
  /-- If it was left out, there is none of its name that would be set in its stead. -/
  fresh : old = none →
    name ∉ (addAll (Element.setIn name none (written done)) behind).map (·.1)
  /-- If it comes back, its place is the end. -/
  last : old = none → new ≠ none →
    name ∉ (written done).map (·.1) ∧ ∀ h ∈ behind, h.isAbsent = true

instance (done : List Held) (name : String) (old new : Option (Option String))
    (behind : List Held) : Decidable (InPlace done name old new behind) :=
  decidable_of_iff
    ((∀ h ∈ behind, h.decides name = false) ∧
      (old = none → name ∉ (addAll (Element.setIn name none (written done)) behind).map (·.1)) ∧
      (old = none → new ≠ none →
        name ∉ (written done).map (·.1) ∧ ∀ h ∈ behind, h.isAbsent = true))
    ⟨fun h => ⟨h.1, h.2.1, h.2.2⟩, fun h => ⟨h.decides, h.fresh, h.last⟩⟩

/-- An attribute set in its place is as if it had been written so. -/
theorem InPlace.setIn_eq (h : InPlace done name old new behind) :
    Element.setIn name new (addAll (Element.setIn name old (written done)) behind) =
      addAll (Element.setIn name new (written done)) behind := by
  cases old with
  | some v => rw [addAll_setIn h.decides (Element.mem_setIn v), Element.setIn_setIn]
  | none =>
    rw [Element.setIn_fresh (h.fresh rfl)]
    cases new with
    | none => exact List.append_nil _
    | some v =>
      obtain ⟨hn, ha⟩ := h.last rfl (Option.some_ne_none v)
      rw [Element.setIn_fresh hn, Element.setIn_fresh hn]
      simp only [Option.toList_none, Option.toList_some, List.map_nil, List.map_cons,
        List.append_nil]
      exact (addAll_absent v _ h.decides ha).symm

end Held

/-! ## Evaluating attributes -/

variable {t : Template} {p : Place} {scope : Scope}

/-- The attributes of a tag, evaluated in its order. -/
def Features.held (t : Template) (p : Place) (scope : Scope) :
    List Feature → StateM Context (List Held)
  | [] => return []
  | .plain name value :: rest =>
    return .fixed name (some value) :: (← Features.held t (p + .one) scope rest)
  | .flag name :: rest =>
    return .fixed name none :: (← Features.held t (p + .one) scope rest)
  | .dynamic name e :: rest => do
    let value ← t.attributeValue scope e p.action
    return .dynamic name e ⟨p.action, p.pc, scope⟩ value
      :: (← Features.held t (p + .acting) scope rest)
  | .listener _ handler :: rest => do
    let _ ← handler.attach scope
    Features.held t (p + .one) scope rest

/-- An update goes over the attributes of a tag: those of some actions are evaluated again, each in
its place. The attributes in `done` stand before them. -/
inductive Held.Refreshed (t : Template) (actions : List ActionId) :
    (done old : List Held) → Context → (new : List Held) → Context → Prop
  | nil {done : List Held} {c : Context} : Refreshed t actions done [] c [] c
  | fixed {done old new : List Held} {c c' : Context} {name : String} {value : Option String} :
    Refreshed t actions (done ++ [.fixed name value]) old c new c' →
    Refreshed t actions done (.fixed name value :: old) c (.fixed name value :: new) c'
  | unchanged {done old new : List Held} {c c' : Context} {name : String} {e : Expr}
    {b : AttributeBinding} {value : Option (Option String)} : b.action ∉ actions →
    Refreshed t actions (done ++ [.dynamic name e b value]) old c new c' →
    Refreshed t actions done (.dynamic name e b value :: old) c (.dynamic name e b value :: new) c'
  | again {done old new : List Held} {c c₁ c' : Context} {name : String} {e : Expr}
    {b : AttributeBinding} {before now : Option (Option String)} : b.action ∈ actions →
    t.attributeValue b.scope e b.action c = (now, c₁) →
    Held.InPlace done name before now old →
    Refreshed t actions (done ++ [.dynamic name e b now]) old c₁ new c' →
    Refreshed t actions done (.dynamic name e b before :: old) c (.dynamic name e b now :: new) c'

/-- A dynamic attribute leads back to its instruction. -/
def Held.Placed (program : Program) : Held → Prop
  | fixed .. => True
  | dynamic name e b _ => program.instrs[b.pc]? = some (.setAttributeExpr name e b.action)

theorem Features.held_placed : ∀ (features : List Feature) (p : Place) (c : Context),
    Features.Hosted t.program p features →
      ∀ h ∈ (Features.held t p scope features c).1, h.Placed t.program
  | [], _, _, _ => by
    intro h hm
    cases hm
  | f :: rest, p, c, hosted => by
    obtain ⟨hi, -, hr⟩ := hosted.cons
    cases f with
    | plain | flag => exact List.forall_mem_cons.2 ⟨trivial, held_placed rest _ c hr⟩
    | dynamic name e => exact List.forall_mem_cons.2 ⟨hi, held_placed rest _ _ hr⟩
    | listener event handler => exact held_placed rest _ _ hr

/-- A tag is rendered with its attributes written in one pass. -/
theorem Features.render_held : ∀ (features : List Feature) (p : Place) (e : Element) (c : Context),
    (Features.render t p scope e features c).1.attrs =
        Held.addAll e.attrs (Features.held t p scope features c).1 ∧
      (Features.render t p scope e features c).1.bindings =
        e.bindings ++ (Features.held t p scope features c).1.filterMap Held.binding?
  | [], _, e, _ => ⟨rfl, (List.append_nil e.bindings).symm⟩
  | f :: rest, p, e, c => by
    obtain ⟨attrs, bindings⟩ := render_held rest (p + f.room) (f.render t p scope e c).1
      (f.render t p scope e c).2
    cases f with
    | dynamic name expr => exact ⟨attrs, bindings.trans (List.append_assoc ..)⟩
    | _ => exact ⟨attrs, bindings⟩

namespace Held.Refreshed

variable {actions : List ActionId} {done old new : List Held} {c c' : Context}

theorem bindings (h : Refreshed t actions done old c new c') :
    new.filterMap binding? = old.filterMap binding? := by
  induction h with
  | nil => rfl
  | fixed _ ih => exact ih
  | unchanged _ _ ih | again _ _ _ _ ih => exact congrArg (List.cons _) ih

theorem placed (h : Refreshed t actions done old c new c')
    (ho : ∀ a ∈ old, a.Placed t.program) : ∀ a ∈ new, a.Placed t.program := by
  induction h with
  | nil => exact ho
  | fixed _ ih | unchanged _ _ ih | again _ _ _ _ ih =>
    obtain ⟨first, others⟩ := List.forall_mem_cons.1 ho
    exact List.forall_mem_cons.2 ⟨first, ih others⟩

/-- An update that sets attributes in their places leaves the element with its attributes as if
they had been written in one pass. -/
theorem updateAttributes (h : Refreshed t actions done old c new c')
    (ho : ∀ a ∈ old, a.Placed t.program) : ∀ e : Element, e.attrs = addAll (written done) old →
      ∃ ran, t.updateAttributes actions (old.filterMap binding?) e c =
        (.ok ({ e with attrs := addAll (written done) new }, ran), c') := by
  -- What is up to date moves to the end of `done`, so that the rest is written behind it.
  have moved (a : Held) (done rest : List Held) :
      addAll (written (done ++ [a])) rest = addAll (written done) (a :: rest) := by
    rw [written, addAll_append]
    rfl
  induction h with
  | nil =>
    intro e he
    refine ⟨[], ?_⟩
    rw [← he]
    rfl
  | fixed _ ih =>
    intro e he
    rw [← moved] at he ⊢
    exact ih (List.forall_mem_cons.1 ho).2 e he
  | unchanged ha _ ih =>
    intro e he
    rw [← moved] at he ⊢
    obtain ⟨ran, run⟩ := ih (List.forall_mem_cons.1 ho).2 e he
    exact ⟨ran, (congrFun (Template.updateAttributes_pass ha _ e) _).trans run⟩
  | @again done old new c c₁ c' name expr b before now ha hv hp _ ih =>
    intro e he
    obtain ⟨hi, hr⟩ := List.forall_mem_cons.1 ho
    have set : (e.setAttr name now).attrs =
        addAll (written (done ++ [.dynamic name expr b now])) old := by
      show Element.setIn name now e.attrs = _
      rw [he, moved]
      exact hp.setIn_eq
    obtain ⟨ran, run⟩ := ih hr (e.setAttr name now) set
    refine ⟨b.action :: ran, ?_⟩
    rw [← moved]
    refine Template.updateAttributes_again ha hi ?_
    rw [hv]
    exact run

end Held.Refreshed

/-! ## Elements -/

section

variable (t : Template) (p : Place) (scope : Scope) (tag : String) (key : Option String)
  (features : List Feature) (children : List Item)

/-- The elements that a run makes of a part of the program, with any updates since then that set
attributes in their places, and what their attributes were evaluated to last. -/
inductive Template.Holds : Element → List Node → List Held → Prop
  | render {frame : Frame} {c c' : Context} {e : Element} {nodes : List Node} :
    t.run t.fuel frame scope (p + (Item.element tag key features children).room).pc p.pc .empty c =
      (.ok (Output.empty.push (.element e nodes)), c') →
    Holds e nodes (Features.held t (p + .one) scope features c).1
  | update {actions ran : List ActionId} {c c₁ c' : Context} {e e' : Element}
    {nodes nodes' : List Node} {held held' : List Held} :
    Holds e nodes held →
    t.updateNode actions (.element e nodes) c = (.ok (.element e' nodes', ran), c') →
    Held.Refreshed t actions [] held c held' c₁ → Holds e' nodes' held'

end

variable {tag : String} {key : Option String} {features : List Feature} {children : List Item}

/-- A run over the part of a program that makes an element. -/
theorem Template.run_element (hosted : (Item.element tag key features children).Hosted t.program p)
    (frame : Frame) (c : Context) :
    t.run t.fuel frame scope (p + (Item.element tag key features children).room).pc p.pc .empty c =
      (.ok (Output.empty.push ((Item.element tag key features children).render t p scope c).1),
        ((Item.element tag key features children).render t p scope c).2) := by
  have room : (Item.element tag key features children).room.pc ≤ t.program.instrs.size := by
    rw [← Item.code_length p, ← Array.length_toList]
    exact hosted.code.length_le
  have whole := leads_item frame scope _ (.element tag key features children) p .empty c hosted
    (Nat.le_refl _)
  refine whole.run_eq ?_
  rw [Place.add_pc, Nat.add_sub_cancel_left]
  exact Nat.lt_succ_of_le room

namespace Template.Holds

variable {e : Element} {nodes : List Node} {held : List Held}

theorem anchored (hosted : (Item.element tag key features children).Hosted t.program p)
    (h : t.Holds p scope tag key features children e nodes held) :
    (Node.element e nodes).Anchored t.program := by
  induction h with
  | @render frame c c' e nodes run =>
    cases run.symm.trans (run_element hosted frame c)
    exact Item.render_anchored _ p scope c hosted
  | @update actions _ c _ _ _ e' _ _ _ _ _ run _ ih =>
    obtain ⟨n', ran, c', run', anchored⟩ := updateNode_ok actions _ c ih
    cases run.symm.trans run'
    exact anchored

/-- What an element was evaluated to last can be read off from its attributes and bindings. -/
theorem attributes (hosted : (Item.element tag key features children).Hosted t.program p)
    (h : t.Holds p scope tag key features children e nodes held) :
    e.attrs = Held.written held ∧ e.bindings = held.filterMap Held.binding? ∧
      ∀ a ∈ held, a.Placed t.program := by
  induction h with
  | @render frame c c' e nodes run =>
    cases run.symm.trans (run_element hosted frame c)
    obtain ⟨attrs, bindings⟩ := Features.render_held features (p + .one) (.plain tag key) c
    exact ⟨attrs, bindings, Features.held_placed features _ c hosted.element.2.1⟩
  | @update actions ran c c₁ c' e e' nodes nodes' held held' before run refreshed ih =>
    obtain ⟨attrs, bindings, placed⟩ := ih
    obtain ⟨ran, again⟩ := refreshed.updateAttributes placed e attrs
    rw [← bindings] at again
    obtain ⟨children, more, c₂, inside, -⟩ :=
      updateNodes_ok actions nodes c₁ (before.anchored hosted).2
    cases run.symm.trans (updateNode_element again inside)
    exact ⟨rfl, bindings.trans refreshed.bindings.symm, refreshed.placed placed⟩

end Template.Holds

/-- An element that was updated has the attributes that it would be rendered with, in names, values
and order, as long as each attribute could be set in its place; and it can be updated further. -/
theorem Template.attributes_as_rendered {e : Element} {nodes : List Node} {held : List Held}
    (hosted : (Item.element tag key features children).Hosted t.program p)
    (h : t.Holds p scope tag key features children e nodes held) :
    e.attrs = Held.written held ∧
      (∀ frame c, (Features.held t (p + .one) scope features c).1 = held →
        ∃ e' nodes' c', t.run t.fuel frame scope
            (p + (Item.element tag key features children).room).pc p.pc .empty c =
          (.ok (Output.empty.push (.element e' nodes')), c') ∧ e'.attrs = e.attrs) ∧
      ∀ actions c, ∃ e' nodes' ran c',
        t.updateNode actions (.element e nodes) c = (.ok (.element e' nodes', ran), c') := by
  obtain ⟨attrs, bindings, placed⟩ := h.attributes hosted
  refine ⟨attrs, fun frame c current => ?_, fun actions c => ?_⟩
  · refine ⟨_, _, _, run_element hosted frame c, ?_⟩
    rw [attrs, ← current]
    exact (Features.render_held features (p + .one) (.plain tag key) c).1
  · obtain ⟨e', ran, c₁, again, -⟩ :=
      updateAttributes_ok actions e.bindings e c (h.anchored hosted).1
    obtain ⟨nodes', more, c₂, inside, -⟩ := updateNodes_ok actions nodes c₁ (h.anchored hosted).2
    exact ⟨e', nodes', ran ++ more, c₂, updateNode_element again inside⟩

/-- A title changes its text, and an attribute at the end of the tag comes back. -/
theorem Template.attributes_as_rendered_title :
    let field (name : String) : Expr := .root default (.field name)
    let features : List Feature :=
      [.plain "class" "a", .dynamic "title" (field "t"), .flag "hidden", .dynamic "id" (field "i")]
    let item := Item.element "p" none features []
    let actions := item.reads.map fun r => Action.mk .property default r.fields r.any
    let t : Template :=
      { serial := 0
        source := ""
        name := none
        program := ⟨(item.code .start).toArray, actions.toArray⟩
        dependencies := .ofActions actions
        functions := .empty
        handlerCapacity := 0 }
    let context (title id : Value) : Context :=
      { state := ⟨0, [("i", id), ("t", title)], [], ⟨2⟩⟩
        props := .map 1 []
        methods := []
        handlers := .withCapacity 16
        dependencies := none
        diagnostics := [] }
    let held (title id : Option (Option String)) : List Held :=
      [.fixed "class" (some "a"), .dynamic "title" (field "t") ⟨0, 2, []⟩ title,
        .fixed "hidden" none, .dynamic "id" (field "i") ⟨1, 4, []⟩ id]
    let now := context (.text "y") (.text "k")
    ∃ e nodes, item.Hosted t.program .start ∧
      t.Holds .start [] "p" none features [] e nodes (held (some "y") (some "k")) ∧
      e.attrs = [("class", some "a"), ("title", some "y"), ("hidden", none), ("id", some "k")] ∧
      ∃ e' nodes' c', t.run t.fuel .page [] (Place.start + item.room).pc 0 .empty now =
        (.ok (Output.empty.push (.element e' nodes')), c') ∧ e'.attrs = e.attrs := by
  intro field features item actions t context held now
  have hosted : item.Hosted t.program .start := ⟨.refl _, .refl _⟩
  have first : t.Holds .start [] "p" none features [] _ _ (held (some "x") none) :=
    .render (run_element hosted .page (context (.text "x") .null))
  obtain ⟨-, -, updates⟩ := attributes_as_rendered hosted first
  obtain ⟨e', nodes', ran, c', run⟩ := updates [0, 1] now
  have refreshed : Held.Refreshed t [0, 1] [] (held (some "x") none) now
      (held (some "y") (some "k")) now :=
    .fixed (.again (by decide) rfl (by decide) (.fixed (.again (by decide) rfl (by decide) .nil)))
  have second := Holds.update first run refreshed
  obtain ⟨attrs, fresh, -⟩ := attributes_as_rendered hosted second
  exact ⟨e', nodes', hosted, second, attrs, fresh .page now rfl⟩

/-- An attribute that comes back before another one comes back behind it. -/
theorem Component.attribute_back_last :
    let source := "<p a=\x7bx\x7d b=\x7by\x7d></p>"
    let context : Context :=
      { state := ⟨0, [("x", .null), ("y", .text "2")], [], ⟨2⟩⟩
        props := .map 1 []
        methods := []
        handlers := .withCapacity 16
        dependencies := none
        diagnostics := [] }
    ∃ t, (Engine.new.build none source).2 = .ok t ∧
      let c := ((Component.new t context).set "x" (.text "1")).2
      (findAll c.tree "p").map (·.1.attrs) = [[("b", some "2"), ("a", some "1")]] ∧
        (findAll c.render.tree "p").map (·.1.attrs) = [[("a", some "1"), ("b", some "2")]] := by
  intro source context
  have facts : (Engine.new.build none source).2.toOption.map (fun t =>
      let c := ((Component.new t context).set "x" (.text "1")).2
      ((findAll c.tree "p").map (·.1.attrs), (findAll c.render.tree "p").map (·.1.attrs))) =
        some ([[("b", some "2"), ("a", some "1")]], [[("a", some "1"), ("b", some "2")]]) := by
    decide +kernel
  obtain ⟨t, built, shown⟩ := Option.map_eq_some_iff.1 facts
  obtain ⟨updated, fresh⟩ := Prod.mk.inj shown
  exact ⟨t, ok_of_toOption built, updated, fresh⟩

end LiveTemplate
