/-
Handler tokens neither leak nor go stale. Rendering issues tokens one after the other, and running
a block again releases the tokens of the nodes it replaces. So after any operations on a component
each token stands in the tree once, and every entry of the registry belongs to a token that stands
there; if no entry ever gave way to a newer one, every token that stands there has its entry. A
token that is not in the tree has no entry, so dispatching it runs no handler.
-/
import LiveTemplate.Proofs.Component.Refresh
import LiveTemplate.Proofs.Registry.History
import LiveTemplate.Proofs.Render.Safety

namespace LiveTemplate

open Registry (Event)

/-! ## Tokens in trees -/

/-- The tokens of the handlers of an element, in order. -/
def Element.tokens (e : Element) : List Registry.Token :=
  e.events.filterMap fun b => match b.handler with
    | .token t => some t
    | .inline _ => none

theorem elementsAll_append : ∀ a b : List Node,
    elementsAll (a ++ b) = elementsAll a ++ elementsAll b
  | [], _ => rfl
  | n :: rest, b => by
    rw [List.cons_append, elementsAll, elementsAll, elementsAll_append rest b, List.append_assoc]

theorem tokensOf_append (a b : List Node) : tokensOf (a ++ b) = tokensOf a ++ tokensOf b := by
  simp only [tokensOf, eventsOf, elementsAll_append, List.flatMap_append, List.filterMap_append]

theorem tokensOf_cons (n : Node) (rest : List Node) :
    tokensOf (n :: rest) = tokensOf [n] ++ tokensOf rest := tokensOf_append [n] rest

theorem tokensOf_element (e : Element) (children : List Node) :
    tokensOf [.element e children] = e.tokens ++ tokensOf children := by
  simp only [tokensOf, eventsOf, elementsAll, Node.elements, List.append_nil, List.flatMap_cons,
    List.filterMap_append]
  rfl

theorem tokensOf_block (anchor : Anchor) (children : List Node) :
    tokensOf [.block anchor children] = tokensOf children := by
  simp only [tokensOf, eventsOf, elementsAll, Node.elements, List.append_nil]

theorem EmitMode.tokensOf_nodes (v : Value) (mode : EmitMode) : tokensOf (mode.nodes v) = [] := by
  cases mode with
  | json => rfl
  | _ =>
    simp only [nodes]
    rcases v.pageText? with _ | s <;> rfl

/-! ## Rendering -/

/-- From one context to another the tokens were issued, and nothing else happened to the
registry. -/
structure Issues (c : Context) (tokens : List Registry.Token) (c' : Context) : Prop where
  inOrder : tokens = List.range' c.handlers.next tokens.length
  handlers : c'.handlers.bare = c.handlers.bare.replay (List.replicate tokens.length .issue)

namespace Issues

variable {c c' c'' : Context}

theorem none (h : c'.handlers = c.handlers) : Issues c [] c' := ⟨rfl, by rw [h]; rfl⟩

theorem trans {a b : List Registry.Token} (h : Issues c a c') (h' : Issues c' b c'') :
    Issues c (a ++ b) c'' := by
  have next : c'.handlers.next = c.handlers.next + a.length := by
    rw [← Registry.next_bare, h.handlers, (Registry.replay_issue _ _).1]
    rfl
  constructor
  · rw [List.length_append, ← List.range'_append_1, ← next, ← h.inOrder, ← h'.inOrder]
  · rw [h'.handlers, h.handlers, List.length_append, List.replicate_add, Registry.replay_append]

/-- Where every round issues the tokens of its nodes, so do all rounds together. -/
theorem mapM {α : Type} {f : α → StateM Context (List Node)}
    (h : ∀ a c, Issues c (tokensOf (f a c).1) (f a c).2) : ∀ (xs : List α) (c : Context),
      Issues c (tokensOf (xs.mapM f c).1.flatten) (xs.mapM f c).2
  | [], c => .none rfl
  | x :: xs, c => by
    rw [List.mapM_cons]
    show Issues c (tokensOf ((f x c).1 ++ (xs.mapM f (f x c).2).1.flatten)) _
    rw [tokensOf_append]
    exact (h x c).trans (mapM h xs (f x c).2)

end Issues

variable {t : Template}

theorem Follows.issues_none {α : Type} {scope : Scope} {e : Expr} {m : StateM Context α}
    {f : Option Value → α} (h : Follows t scope e m f) (c : Context) : Issues c [] (m c).2 := by
  obtain ⟨diagnostics, hm⟩ := h.context c
  exact .none (by rw [hm])

theorem HandlerSource.attach_issues (handler : HandlerSource) (scope : Scope) (c : Context) :
    (∃ code, (handler.attach scope c).1 = .inline code) ∧ Issues c [] (handler.attach scope c).2 ∨
      (handler.attach scope c).1 = .token c.handlers.next ∧
        Issues c [c.handlers.next] (handler.attach scope c).2 := by
  unfold attach
  by_cases hi : handler.onlyIndices scope = true
  · simp only [if_pos hi]
    exact .inl ⟨⟨_, rfl⟩, .none rfl⟩
  · simp only [if_neg hi]
    exact .inr ⟨rfl, rfl, Registry.bare_insert ..⟩

theorem Feature.render_issues (p : Place) (scope : Scope) (e : Element) (c : Context)
    (f : Feature) : ∃ tokens, (f.render t p scope e c).1.tokens = e.tokens ++ tokens ∧
      Issues c tokens (f.render t p scope e c).2 := by
  cases f with
  | plain name value => exact ⟨[], (List.append_nil _).symm, .none rfl⟩
  | flag name => exact ⟨[], (List.append_nil _).symm, .none rfl⟩
  | dynamic name expr =>
    exact ⟨[], (List.append_nil _).symm, (t.attributeValue_follows scope expr p.action).issues_none c⟩
  | listener event handler =>
    have tokens (h : Handler) : ({ e with events := e.events ++ [⟨event, h⟩] } : Element).tokens =
        e.tokens ++ match h with
          | .token t => [t]
          | .inline _ => [] := by
      cases h <;> simp [Element.tokens]
    rcases handler.attach_issues scope c with ⟨⟨code, hc⟩, hi⟩ | ⟨ht, hi⟩
    · refine ⟨[], ?_, hi⟩
      show Element.tokens { e with events := e.events ++ [⟨event, (handler.attach scope c).1⟩] } = _
      rw [tokens, hc]
    · refine ⟨[c.handlers.next], ?_, hi⟩
      show Element.tokens { e with events := e.events ++ [⟨event, (handler.attach scope c).1⟩] } = _
      rw [tokens, ht]

theorem Features.render_issues (scope : Scope) : ∀ (features : List Feature) (p : Place)
    (e : Element) (c : Context), ∃ tokens,
      (Features.render t p scope e features c).1.tokens = e.tokens ++ tokens ∧
        Issues c tokens (Features.render t p scope e features c).2
  | [], p, e, c => ⟨[], (List.append_nil _).symm, .none rfl⟩
  | f :: rest, p, e, c => by
    obtain ⟨tokens, ht, hi⟩ := f.render_issues (t := t) p scope e c
    obtain ⟨others, ho, hi'⟩ := Features.render_issues scope rest (p + f.room)
      (f.render t p scope e c).1 (f.render t p scope e c).2
    refine ⟨tokens ++ others, ?_, hi.trans hi'⟩
    rw [← List.append_assoc, ← ht]
    exact ho

mutual

/-- Rendering a part issues the tokens of its node, in order. -/
theorem Item.render_issues : ∀ (i : Item) (p : Place) (scope : Scope) (c : Context),
    Issues c (tokensOf [(i.render t p scope c).1]) (i.render t p scope c).2
  | .text _, _, _, _ => .none rfl
  | .element tag key features children, p, scope, c => by
    obtain ⟨tokens, ht, hi⟩ := Features.render_issues (t := t) scope features (p + .one)
      (.plain tag key) c
    have inside := Items.render_issues children (p + (.one + Features.room features)) scope
      (Features.render t (p + .one) scope (.plain tag key) features c).2
    have together := hi.trans inside
    rw [show tokens = (Features.render t (p + .one) scope (.plain tag key) features c).1.tokens from
      ht.symm, ← tokensOf_element] at together
    exact together
  | .block b, p, scope, c => by
    have h := Block.render_issues b p scope c
    rw [← tokensOf_block (b.render t p scope c).1.1] at h
    exact h

theorem Items.render_issues : ∀ (items : List Item) (p : Place) (scope : Scope) (c : Context),
    Issues c (tokensOf (Items.render t p scope items c).1) (Items.render t p scope items c).2
  | [], _, _, _ => .none rfl
  | i :: rest, p, scope, c => by
    have together := (Item.render_issues i p scope c).trans
      (Items.render_issues rest (p + i.room) scope (i.render t p scope c).2)
    rw [← tokensOf_cons] at together
    exact together

theorem Block.render_issues : ∀ (b : Block) (p : Place) (scope : Scope) (c : Context),
    Issues c (tokensOf (b.render t p scope c).1.2) (b.render t p scope c).2
  | .emit e mode, p, scope, c => by
    have none : tokensOf (t.emitted scope e mode p.action c).1 = [] := by
      rw [(t.emitted_follows scope e mode p.action).result]
      rcases t.value? c scope e with _ | v
      · rfl
      · exact mode.tokensOf_nodes v
    show Issues c (tokensOf (t.emitted scope e mode p.action c).1) _
    rw [none]
    exact (t.emitted_follows scope e mode p.action).issues_none c
  | .chain clauses, p, scope, c => Clauses.render_issues clauses (p + Place.acting) p.action scope c
  | .loop binding collection body, p, scope, c => by
    have first := (t.items_follows scope collection p.action).issues_none c
    have rounds := Issues.mapM (fun item c => Items.render_issues body
      (p + (.acting + .one)) (scope ++ binding.bind item) c)
      (t.items scope collection p.action c).1 (t.items scope collection p.action c).2
    exact first.trans rounds

theorem Clauses.render_issues : ∀ (clauses : Clauses) (p : Place) (action : ActionId)
    (scope : Scope) (c : Context),
      Issues c (tokensOf (clauses.render t action p scope c).1) (clauses.render t action p scope c).2
  | .done, _, _, _, _ => .none rfl
  | .otherwise body, p, _, scope, c => Items.render_issues body p scope c
  | .clause test negate body rest, p, action, scope, c => by
    have first := (t.test_follows scope test negate action).issues_none c
    rw [Clauses.render_clause]
    generalize t.test scope test negate action c = outcome at first ⊢
    rcases outcome with ⟨_ | _ | _, c₁⟩
    · exact first
    · exact first.trans (rest.render_issues _ action scope c₁)
    · exact first.trans (Items.render_issues body (p + Place.one) scope c₁)

end

/-! ## Updates -/

mutual

/-- What happens to the registry where the given actions run again, told from a node before and
after: the tokens of a block that was replaced are released before those of the new one are
issued. -/
def Node.exchange (actions : List ActionId) : Node → Node → List Event
  | .block anchor children, .block _ children' =>
    if anchor.action ∈ actions then
      (tokensOf children).map .release ++ List.replicate (tokensOf children').length .issue
    else Nodes.exchange actions children children'
  | .element _ children, .element _ children' => Nodes.exchange actions children children'
  | _, _ => []

def Nodes.exchange (actions : List ActionId) : List Node → List Node → List Event
  | n :: rest, n' :: rest' => n.exchange actions n' ++ Nodes.exchange actions rest rest'
  | _, _ => []

end

/-- From one context to another the events happened to the registry, by which the tokens that
stood somewhere were exchanged. -/
structure Exchanged (c : Context) (events : List Event) (old new : List Registry.Token)
    (c' : Context) : Prop where
  handlers : c'.handlers.bare = c.handlers.bare.replay events
  exchanges : c.handlers.bare.Exchanges events old new

namespace Template

variable {actions : List ActionId}

/-- Evaluating attributes again leaves the listeners and the registry as they are. -/
theorem updateAttributes_frame : ∀ (bindings : List AttributeBinding) (e : Element) (c : Context),
    (∀ b ∈ bindings, ∃ name expr action,
      t.program.instrs[b.pc]? = some (.setAttributeExpr name expr action)) →
    ∀ {e' : Element} {ran : List ActionId} {c' : Context},
      t.updateAttributes actions bindings e c = (.ok (e', ran), c') →
        e'.events = e.events ∧ c'.handlers = c.handlers
  | [], e, c, _, _, _, _, h => by
    cases h
    exact ⟨rfl, rfl⟩
  | b :: rest, e, c, hb, e', ran, c', h => by
    obtain ⟨⟨name, expr, action, hi⟩, hr⟩ := List.forall_mem_cons.1 hb
    by_cases ha : b.action ∈ actions
    · obtain ⟨e₁, ran₁, c₁, run, -⟩ := updateAttributes_ok actions rest
        (e.setAttr name (t.attributeValue b.scope expr action c).1)
        (t.attributeValue b.scope expr action c).2 hr
      cases h.symm.trans (updateAttributes_again ha hi run)
      obtain ⟨he, hc⟩ := updateAttributes_frame rest _ _ hr run
      obtain ⟨diagnostics, hd⟩ := (t.attributeValue_follows b.scope expr action).context c
      exact ⟨he, by rw [hc, hd]⟩
    · rw [updateAttributes_pass ha] at h
      exact updateAttributes_frame rest e c hr h

theorem releaseAll_bare (nodes : List Node) (c : Context) :
    (releaseAll nodes c).2.handlers.bare =
      c.handlers.bare.replay ((tokensOf nodes).map .release) := by
  show ((tokensOf nodes).foldl (fun r token => (r.release token).2) c.handlers).bare = _
  generalize c.handlers = r
  induction tokensOf nodes generalizing r with
  | nil => rfl
  | cons token rest ih =>
    rw [List.foldl_cons, ih, Registry.bare_release]
    rfl

mutual

/-- Running actions of a node again exchanges the tokens in it. -/
theorem updateNode_exchanged : ∀ (n : Node) (c : Context), n.Anchored t.program →
    (tokensOf [n]).Nodup → (∀ token ∈ tokensOf [n], token < c.handlers.next) →
    ∀ {n' : Node} {ran : List ActionId} {c' : Context},
      t.updateNode actions n c = (.ok (n', ran), c') →
        Exchanged c (n.exchange actions n') (tokensOf [n]) (tokensOf [n']) c'
  | .text s, c, _, _, _, n', ran, c', h => by
    cases h
    exact ⟨rfl, .refl _ _⟩
  | .html s, c, _, _, _, n', ran, c', h => by
    cases h
    exact ⟨rfl, .refl _ _⟩
  | .element e children, c, ⟨hb, hc⟩, hn, hlt, n', ran, c', h => by
    obtain ⟨e', ran₁, c₁, attributes, -⟩ := updateAttributes_ok actions e.bindings e c hb
    obtain ⟨children', ran₂, c₂, inside, -⟩ := updateNodes_ok actions children c₁ hc
    cases h.symm.trans (updateNode_element attributes inside)
    obtain ⟨he, hh⟩ := updateAttributes_frame e.bindings e c hb attributes
    rw [tokensOf_element] at hn hlt
    obtain ⟨-, hn', hd⟩ := List.nodup_append'.1 hn
    have below : ∀ token ∈ tokensOf children, token < c.handlers.next :=
      fun token ht => hlt token (List.mem_append_right _ ht)
    obtain ⟨handlers, exchanges⟩ := updateNodes_exchanged children c₁ hc hn' (hh ▸ below) inside
    rw [hh] at handlers exchanges
    refine ⟨handlers, ?_⟩
    rw [tokensOf_element, tokensOf_element, show e'.tokens = e.tokens by rw [Element.tokens, he]; rfl]
    exact (Registry.Exchanges.refl _ e.tokens).append exchanges hd below
  | .block anchor children, c, ⟨⟨p, b, hp, hpc⟩, hc⟩, hn, hlt, n', ran, c', h => by
    rw [tokensOf_block] at hn hlt
    by_cases ha : anchor.action ∈ actions
    · -- the block renders in a context where its old tokens are released
      cases h.symm.trans (updateNode_again hp (congrArg Anchor.start hpc).symm ha children c)
      have issues := Block.render_issues (t := t) b p anchor.scope (releaseAll children c).2
      have next : (releaseAll children c).2.handlers.next = c.handlers.next := by
        rw [← Registry.next_bare, releaseAll_bare, (Registry.replay_release _ _).1]
        rfl
      have tokens := issues.inOrder
      rw [next] at tokens
      constructor
      · rw [Node.exchange, if_pos ha, Registry.replay_append, ← releaseAll_bare]
        exact issues.handlers
      · rw [Node.exchange, if_pos ha, tokensOf_block, tokensOf_block]
        nth_rewrite 2 [tokens]
        exact .renew ..
    · obtain ⟨children', ran₁, c₁, inside, -⟩ := updateNodes_ok actions children c hc
      cases h.symm.trans (updateNode_block ha inside)
      rw [tokensOf_block, tokensOf_block, Node.exchange, if_neg ha]
      exact updateNodes_exchanged children c hc hn hlt inside

theorem updateNodes_exchanged : ∀ (nodes : List Node) (c : Context),
    Nodes.Anchored t.program nodes → (tokensOf nodes).Nodup →
    (∀ token ∈ tokensOf nodes, token < c.handlers.next) →
    ∀ {nodes' : List Node} {ran : List ActionId} {c' : Context},
      t.updateNodes actions nodes c = (.ok (nodes', ran), c') →
        Exchanged c (Nodes.exchange actions nodes nodes') (tokensOf nodes) (tokensOf nodes') c'
  | [], c, _, _, _, nodes', ran, c', h => by
    cases h
    exact ⟨rfl, .refl _ _⟩
  | n :: rest, c, ⟨ha, hr⟩, hn, hlt, nodes', ran, c', h => by
    obtain ⟨n₁, ran₁, c₁, first, -⟩ := updateNode_ok actions n c ha
    obtain ⟨rest', ran₂, c₂, others, -⟩ := updateNodes_ok actions rest c₁ hr
    cases h.symm.trans (updateNodes_cons first others)
    rw [tokensOf_cons] at hn hlt
    obtain ⟨hn₁, hn₂, hd⟩ := List.nodup_append'.1 hn
    have below : ∀ token ∈ tokensOf rest, token < c.handlers.next :=
      fun token ht => hlt token (List.mem_append_right _ ht)
    have here := updateNode_exchanged n c ha hn₁
      (fun token ht => hlt token (List.mem_append_left _ ht)) first
    have grown : c.handlers.next ≤ c₁.handlers.next := by
      have le := here.exchanges.next_le
      rw [← here.handlers] at le
      exact le
    have there := updateNodes_exchanged rest c₁ hr hn₂
      (fun token ht => (below token ht).trans_le grown) others
    rw [tokensOf_cons n, tokensOf_cons n₁, Nodes.exchange]
    constructor
    · rw [Registry.replay_append, ← here.handlers]
      exact there.handlers
    · have exchanges := there.exchanges
      rw [here.handlers] at exchanges
      exact here.exchanges.append exchanges hd below

end

end Template

/-! ## Histories -/

/-- What a full render that gives a tree does to the registry. -/
def Template.renderEvents (t : Template) (tree : List Node) : List Event :=
  .clear :: .resize t.handlerCapacity :: List.replicate (tokensOf tree).length .issue

/-- What bringing the tree up to date does to the registry. -/
def Component.flushEvents (c : Component) : List Event :=
  if c.context.state.dirty.isEmpty then []
  else Nodes.exchange (c.template.dependencies.actionsFor c.context.state.dirty) c.tree c.flush.2.tree

/-- What an operation does to the registry. -/
def Operation.events (c : Component) : Operation → List Event
  | set path v => match State.set path v c.context.state with
    | (.ok (), state) => (c.withState state).flushEvents
    | (.error _, _) => []
  | flush => c.flushEvents
  | render => c.template.renderEvents c.render.tree
  | dispatch handler event => (c.invoke handler event).2.flushEvents
  | write .. | touch _ => []

/-- What operations do to the registry, one after the other. -/
def Component.events (c : Component) : List Operation → List Event
  | [] => []
  | operation :: rest => operation.events c ++ (operation.run c).events rest

/-- All that happens to the registry of a context that is rendered and then operated on. -/
def Component.history (t : Template) (context : Context) (operations : List Operation) :
    List Event :=
  t.renderEvents (new t context).tree ++ (new t context).events operations

/-! ## Components -/

namespace Component

/-- The tokens in the tree are different ones that were issued, and the registry holds none but
them, to stay until they are released. -/
structure Tidy (t : Template) (c : Component) : Prop where
  template : c.template = t
  anchored : Nodes.Anchored t.program c.tree
  nodup : (tokensOf c.tree).Nodup
  issued : ∀ token ∈ tokensOf c.tree, token < c.context.handlers.next
  live : ∀ token ∈ c.context.handlers.live, token ∈ tokensOf c.tree
  persistent : ∀ e ∈ c.context.handlers.bare.entries, e.persistent = true

/-- The registry holds every token in the tree. -/
def Complete (c : Component) : Prop :=
  ∀ token ∈ tokensOf c.tree, token ∈ c.context.handlers.live

/-- A component goes over to a tidy one by events, and stays complete if no entry gives way. -/
structure Moves (t : Template) (c : Component) (events : List Event) (c' : Component) : Prop where
  tidy : c'.Tidy t
  handlers : c'.context.handlers.bare = c.context.handlers.bare.replay events
  complete : c.context.handlers.bare.Unevicted events → c.Complete → c'.Complete

variable {items : List Item} {c c' c'' : Component}

theorem Moves.trans {a b : List Event} (h : c.Moves t a c') (h' : c'.Moves t b c'') :
    c.Moves t (a ++ b) c'' where
  tidy := h'.tidy
  handlers := by rw [h'.handlers, h.handlers, Registry.replay_append]
  complete := by
    rw [Registry.unevicted_append, ← h.handlers]
    exact fun ⟨ha, hb⟩ hc => h'.complete hb (h.complete ha hc)

/-- Writing to the state leaves tree and registry as they are. -/
theorem Tidy.withState (h : c.Tidy t) (state : State) : c.Moves t [] (c.withState state) where
  tidy := ⟨h.template, h.anchored, h.nodup, h.issued, h.live, h.persistent⟩
  handlers := rfl
  complete := fun _ hc => hc

/-- Entries are never issued but to stay. -/
theorem replay_persistent : ∀ (events : List Event) (r : Registry Unit),
    (∀ e ∈ r.entries, e.persistent = true) → ∀ e ∈ (r.replay events).entries, e.persistent = true
  | [], _, h => h
  | event :: rest, r, h => by
    refine replay_persistent rest (r.perform event) fun e he => ?_
    cases event with
    | clear => exact absurd he List.not_mem_nil
    | resize capacity => exact h e (List.mem_of_mem_drop he)
    | release token => exact h e (List.mem_of_mem_filter he)
    | issue =>
      rcases List.mem_append.1 (List.mem_of_mem_drop he) with he | he
      · exact h e he
      · cases List.mem_singleton.1 he
        rfl

/-- A render starts from an empty registry and issues the tokens of the tree. -/
theorem moves_new (hl : t.program.LaidOut items) (c : Component) :
    c.Moves t (t.renderEvents (new t c.context).tree) (new t c.context) := by
  have issues := Items.render_issues (t := t) items .start [] (t.prepare c.context)
  rw [← Template.render_eq hl] at issues
  obtain ⟨inOrder, handlers⟩ := issues
  have anchored : Nodes.Anchored t.program (t.render c.context).1 :=
    Template.Rendered.anchored hl (.render c.context)
  have prepared : (t.prepare c.context).handlers.bare =
      (c.context.handlers.bare.perform .clear).perform (.resize t.handlerCapacity) := by
    show (c.context.handlers.clear.setCapacity t.handlerCapacity).bare = _
    rw [Registry.bare_setCapacity]
    rfl
  obtain ⟨hn, hlive, hheld⟩ := Registry.replay_issue (tokensOf (t.render c.context).1).length
    (t.prepare c.context).handlers.bare
  rw [← handlers, Registry.next_bare, Registry.next_bare] at hn
  simp only [← handlers, Registry.next_bare, ← inOrder, Registry.live_bare] at hlive hheld
  have none : (t.prepare c.context).handlers.live = [] := by
    rw [← Registry.live_bare]
    simp [prepared, Registry.perform, Registry.clear, Registry.setCapacity, Registry.evict,
      Registry.live]
  have replayed : (new t c.context).context.handlers.bare =
      c.context.handlers.bare.replay (t.renderEvents (new t c.context).tree) := by
    show (t.render c.context).2.handlers.bare = _
    rw [handlers, prepared]
    rfl
  refine ⟨⟨rfl, anchored, ?_, ?_, ?_, ?_⟩, replayed, ?_⟩
  · show (tokensOf (t.render c.context).1).Nodup
    rw [inOrder]
    exact List.nodup_range'
  · intro token ht
    show token < (t.render c.context).2.handlers.next
    change token ∈ tokensOf (t.render c.context).1 at ht
    rw [inOrder, List.mem_range'_1] at ht
    exact hn ▸ ht.2
  · intro token ht
    rcases hlive token ht with h | h
    · rw [none] at h
      cases h
    · exact h
  · rw [replayed]
    show ∀ e ∈ ((c.context.handlers.bare.perform .clear).replay _).entries, _
    exact replay_persistent _ _ fun e he => absurd he List.not_mem_nil
  · rintro ⟨-, -, hu⟩ - token ht
    rw [← prepared] at hu
    exact hheld hu token (.inr ht)

theorem flush_clean (hd : c.context.state.dirty = []) : c.flush.2 = c := by
  unfold Component.flush
  dsimp only [State.takeDirty]
  rw [if_pos (List.isEmpty_iff.2 hd)]

/-- A component with noted changes after it is brought up to date. -/
theorem flush_of_run {actions : List ActionId} {tree : List Node} {context : Context}
    (hd : c.context.state.dirty ≠ [])
    (run : c.template.updateNodes (c.template.dependencies.actionsFor c.context.state.dirty) c.tree
      { c.context with state := c.context.state.takeDirty.2 } = (.ok (tree, actions), context)) :
    c.flush.2 = ⟨c.template, context, tree⟩ := by
  unfold Component.flush
  dsimp only [State.takeDirty]
  rw [if_neg (mt List.isEmpty_iff.1 hd)]
  exact congrArg (fun updated => Component.mk c.template updated.2 updated.1.2)
    (Template.update_eq run)

/-- Bringing a tree up to date exchanges the tokens of the blocks that run again. -/
theorem Tidy.flush (h : c.Tidy t) : c.Moves t c.flushEvents c.flush.2 := by
  by_cases hd : c.context.state.dirty = []
  · rw [flushEvents, if_pos (List.isEmpty_iff.2 hd), flush_clean hd]
    exact ⟨h, rfl, fun _ hc => hc⟩
  obtain ⟨template, context, tree⟩ := c
  obtain rfl : template = t := h.template
  let actions := template.dependencies.actionsFor context.state.dirty
  let start : Context := { context with state := context.state.takeDirty.2 }
  obtain ⟨tree', ran, context', run, anchored⟩ := Template.updateNodes_ok actions tree start
    h.anchored
  have flushed : (flush ⟨template, context, tree⟩).2 = ⟨template, context', tree'⟩ :=
    flush_of_run hd run
  have exchanged := Template.updateNodes_exchanged tree start h.anchored h.nodup h.issued run
  have events : flushEvents ⟨template, context, tree⟩ = Nodes.exchange actions tree tree' := by
    rw [flushEvents, if_neg (mt List.isEmpty_iff.1 hd), flushed]
  rw [events, flushed]
  obtain ⟨handlers, exchanges⟩ := exchanged
  refine ⟨⟨rfl, anchored, exchanges.nodup h.nodup h.issued, ?_, ?_, ?_⟩, handlers, ?_⟩
  · intro token ht
    have le := exchanges.next_le
    rw [← handlers] at le
    rcases exchanges.mem_new token ht with ho | ⟨-, hlt⟩
    · exact (h.issued token ho).trans_le le
    · rw [← handlers] at hlt
      exact hlt
  · intro token ht
    have hlive := exchanges.live token
    rw [← handlers, Registry.live_bare, Registry.live_bare] at hlive
    rcases hlive ht with hnew | ⟨hold, hnot⟩
    · exact hnew
    · exact absurd (h.live token hold) hnot
  · rw [handlers]
    exact replay_persistent _ _ h.persistent
  · intro hu hc token ht
    have held := exchanges.held hu (fun token ho => (Registry.live_bare _).symm ▸ hc token ho) token ht
    rw [← handlers, Registry.live_bare] at held
    exact held

/-- A handler changes the state at most: entries are not used up. -/
theorem Tidy.invoke (h : c.Tidy t) (handler : Handler) (event : Value) :
    ∃ state, (c.invoke handler event).2 = c.withState state := by
  unfold Component.invoke
  rcases handler with code | token
  · dsimp only
    split
    · exact ⟨c.context.state, rfl⟩
    · exact ⟨_, rfl⟩
  · have taken : (c.context.handlers.take token).2 = c.context.handlers := by
      unfold Registry.take
      rcases hf : c.context.handlers.find? token with _ | e
      · rfl
      · have hp : e.persistent = true := h.persistent ⟨e.token, (), e.persistent⟩
          (List.mem_map.2 ⟨e, List.mem_of_find?_eq_some hf, rfl⟩)
        simp only [hp, if_true]
    dsimp only
    split
    · exact ⟨c.context.state, rfl⟩
    · rename_i captured handlers ht
      rw [ht] at taken
      cases taken
      exact ⟨_, rfl⟩

/-- What one operation does to a tidy component. -/
theorem Tidy.run (hl : t.program.LaidOut items) (h : c.Tidy t) :
    ∀ operation : Operation, c.Moves t (operation.events c) (operation.run c)
  | .set path v => by
    unfold Operation.events Operation.run Component.set
    dsimp only
    rcases State.set path v c.context.state with ⟨e | _, state⟩
    · exact h.withState state
    · exact (h.withState state).trans (h.withState state).tidy.flush
  | .flush => h.flush
  | .render => by
    have moves := moves_new hl c
    rw [← h.template] at moves ⊢
    exact moves
  | .dispatch handler event => by
    obtain ⟨state, hs⟩ := h.invoke handler event
    show c.Moves t (c.invoke handler event).2.flushEvents (c.invoke handler event).2.flush.2
    rw [hs]
    exact (h.withState state).trans (h.withState state).tidy.flush
  | .write path v => h.withState _
  | .touch field => h.withState _

theorem Tidy.perform (hl : t.program.LaidOut items) : ∀ (operations : List Operation)
    {c : Component}, c.Tidy t → c.Moves t (c.events operations) (c.perform operations)
  | [], _, h => ⟨h, rfl, fun _ hc => hc⟩
  | operation :: rest, _, h => by
    have first := h.run hl operation
    exact first.trans (first.tidy.perform hl rest)

/-- A token that is not in the tree runs no handler. -/
theorem Tidy.dispatch_unknown (h : c.Tidy t) {token : Registry.Token}
    (ht : token ∉ tokensOf c.tree) (event : Value) :
    c.dispatch (.token token) event = (.error (.bare (.unknownToken token)), c.flush.2) := by
  have missing : c.context.handlers.find? token = none :=
    Registry.find?_eq_none.2 fun hlive => ht (h.live token hlive)
  simp only [dispatch, Component.invoke, Registry.take, missing]

end Component

/-- After any operations on a component of a template that compiles, every token stands in the tree
once and the registry holds no token that is not there; if no entry ever gave way to a newer one,
it holds all that are there. Dispatching a token that is not in the tree fails for this reason and
runs no handler: the component is then as a flush leaves it, which is as it was if no change is
noted. What happened to the registry is told by the history of the component. -/
theorem Component.live_tokens_in_tree {engine : Engine} {name : Option String} {source : String}
    {t : Template} (h : (engine.build name source).2 = .ok t) (context : Context)
    (operations : List Operation) :
    let c := (Component.new t context).perform operations
    let history := Component.history t context operations
    c.context.handlers.bare = context.handlers.bare.replay history ∧
      (tokensOf c.tree).Nodup ∧
      (∀ token ∈ c.context.handlers.live, token ∈ tokensOf c.tree) ∧
      (context.handlers.bare.Unevicted history →
        ∀ token, token ∈ c.context.handlers.live ↔ token ∈ tokensOf c.tree) ∧
      ∀ token ∉ tokensOf c.tree, ∀ event : Value,
        c.dispatch (.token token) event = (.error (.bare (.unknownToken token)), c.flush.2) ∧
          (c.context.state.dirty = [] → (c.dispatch (.token token) event).2 = c) := by
  intro c history
  obtain ⟨hc, -⟩ := Engine.build_ok h
  obtain ⟨items, -, hl⟩ := (compile_refines t.functions.contains t.source).ok hc
  have first := Component.moves_new hl ⟨t, context, []⟩
  have moves := first.trans (first.tidy.perform hl operations)
  refine ⟨moves.handlers, moves.tidy.nodup, moves.tidy.live, fun hu token => ?_, ?_⟩
  · exact ⟨moves.tidy.live token, moves.complete hu nofun token⟩
  · intro token ht event
    have dispatched := moves.tidy.dispatch_unknown ht event
    refine ⟨dispatched, fun hd => ?_⟩
    rw [dispatched]
    exact Component.flush_clean hd

/-- A loop whose items have listeners: writing the list replaces their nodes, and the two tokens
issued first go with them. -/
theorem Component.live_tokens_in_tree_loop :
    let source := "\x7b#each xs as x\x7d<b onclick=\x7bpick(x)\x7d>\x7bx\x7d</b>\x7b/each\x7d"
    let context : Context :=
      { state := ⟨0, [("xs", .list 1 [.int 1, .int 2])], [], ⟨2⟩⟩
        props := .map 3 []
        methods := [("pick", fun _ => return .null)]
        handlers := .withCapacity 16
        dependencies := none
        diagnostics := [] }
    let operations : List Operation := [.set "xs.0" (.int 5), .dispatch (.token 3) .null]
    ∃ t, (Engine.new.build none source).2 = .ok t ∧
      let c := (Component.new t context).perform operations
      tokensOf c.tree = [3, 4] ∧ c.context.state.dirty = [] ∧
        (∀ token, token ∈ c.context.handlers.live ↔ token ∈ tokensOf c.tree) ∧
        ∀ event, c.dispatch (.token 1) event = (.error (.bare (.unknownToken 1)), c) := by
  intro source context operations
  have facts : (Engine.new.build none source).2.toOption.map (fun t =>
      let c := (Component.new t context).perform operations
      (tokensOf c.tree, c.context.state.dirty,
        decide (context.handlers.bare.Unevicted (Component.history t context operations)))) =
        some ([3, 4], [], true) := by decide +kernel
  rcases h : (Engine.new.build none source).2 with fault | t
  · rw [h] at facts
    cases facts
  rw [h] at facts
  obtain ⟨tokens, facts⟩ := Prod.mk.inj (Option.some.inj facts)
  obtain ⟨clean, quiet⟩ := Prod.mk.inj facts
  clear_value context operations
  obtain ⟨-, -, -, exact', unknown⟩ := Component.live_tokens_in_tree h context operations
  refine ⟨t, rfl, tokens, clean, exact' (of_decide_eq_true quiet), fun event => ?_⟩
  obtain ⟨failed, same⟩ := unknown 1 (by rw [tokens]; decide) event
  exact Prod.ext (by rw [failed]) (same clean)

/-- A loop whose collection comes from a method that writes to the state. Bringing the tree up to
date then notes a change again, so dispatching a token that went with an earlier tree, which brings
the tree up to date as well, leaves another state behind. -/
theorem Component.dispatch_unknown_writes :
    let source := "\x7b#each bump(n) as x\x7d<b onclick=\x7bpick(x)\x7d></b>\x7b/each\x7d"
    let bump : Method := fun _ => do
      if let some (.int k) := (← get).get? "n" then State.set "n" (.int (k + 1))
      return .list 0 [.null]
    let context : Context :=
      { state := ⟨0, [("n", .int 0)], [], ⟨1⟩⟩
        props := .map 2 []
        methods := [("bump", bump)]
        handlers := .withCapacity 16
        dependencies := none
        diagnostics := [] }
    let count (c : Component) : Option Int64 := match c.get? "n" with
      | some (.int k) => some k
      | _ => none
    ∃ t, (Engine.new.build none source).2 = .ok t ∧
      let c := (Component.new t context).perform [.set "n" (.int 5)]
      1 ∈ tokensOf (Component.new t context).tree ∧ 1 ∉ tokensOf c.tree ∧ count c = some 6 ∧
        count (c.dispatch (.token 1) .null).2 = some 7 := by
  intro source bump context count
  have facts : (Engine.new.build none source).2.toOption.map (fun t =>
      let c := (Component.new t context).perform [.set "n" (.int 5)]
      (tokensOf (Component.new t context).tree, tokensOf c.tree, count c,
        count (c.dispatch (.token 1) .null).2)) = some ([1], [2], some 6, some 7) := by
    decide +kernel
  rcases h : (Engine.new.build none source).2 with fault | t
  · rw [h] at facts
    cases facts
  rw [h] at facts
  clear_value count context
  obtain ⟨before, facts⟩ := Prod.mk.inj (Option.some.inj facts)
  obtain ⟨after, facts⟩ := Prod.mk.inj facts
  obtain ⟨six, seven⟩ := Prod.mk.inj facts
  refine ⟨t, rfl, ?_, ?_, six, seven⟩
  · rw [before]
    exact List.mem_cons_self
  · rw [after]
    decide

end LiveTemplate
