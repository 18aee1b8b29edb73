/-
What the handlers of a page have captured. A loop over a field of the state renders one round for
each item; the handlers of a round keep the item in the variable of the loop, as long as no loop
further inside binds the variable again, and the blocks of a round remember it for when they are
run again. Rendering brings this about, and running parts of a tree again preserves it, as long as
the field holds what it held; where the loop itself is run again, it is brought about anew.
-/
import LiveTemplate.Proofs.Component.Tokens
import LiveTemplate.Proofs.Expr.Bound
import LiveTemplate.Proofs.Render.Steady

namespace LiveTemplate

/-! ## Later contexts -/

/-- A registry later on: an entry under a token that was issued before was there before. -/
structure Registry.Later {α : Type} (r r' : Registry α) : Prop where
  next : r.next ≤ r'.next
  kept : ∀ e ∈ r'.entries, e.token < r.next → e ∈ r.entries
  issued : (∀ e ∈ r.entries, e.token < r.next) → ∀ e ∈ r'.entries, e.token < r'.next

namespace Registry.Later

variable {α : Type} {r r' r'' : Registry α}

theorem refl (r : Registry α) : r.Later r := ⟨Nat.le_refl _, fun _ h _ => h, fun h => h⟩

theorem trans (h : r.Later r') (h' : r'.Later r'') : r.Later r'' where
  next := h.next.trans h'.next
  kept := by
    intro e he ht
    exact h.kept e (h'.kept e he (ht.trans_le h.next)) ht
  issued := fun hi => h'.issued (h.issued hi)

theorem insert (r : Registry α) (value : α) (persistent : Bool) :
    r.Later (r.insert value persistent).2 := by
  have entries : ∀ e ∈ (r.insert value persistent).2.entries,
      e ∈ r.entries ∨ e = ⟨r.next, value, persistent⟩ := by
    intro e he
    rcases List.mem_append.1 (List.mem_of_mem_drop he) with he | he
    · exact .inl he
    · exact .inr (List.mem_singleton.1 he)
  refine ⟨Nat.le_succ _, ?_, ?_⟩
  · intro e he ht
    rcases entries e he with he | rfl
    · exact he
    · exact absurd ht (Nat.lt_irrefl _)
  · intro hi e he
    rcases entries e he with he | rfl
    · exact Nat.lt_succ_of_lt (hi e he)
    · exact Nat.lt_succ_self _

theorem release (r : Registry α) (token : Registry.Token) : r.Later (r.release token).2 where
  next := Nat.le_refl _
  kept := fun _ he _ => List.mem_of_mem_filter he
  issued := fun hi e he => hi e (List.mem_of_mem_filter he)

end Registry.Later

/-- A context after parts were rendered: nothing was written, and handlers came and went. -/
structure Context.Later (c c' : Context) : Prop where
  keeps : c.Keeps c'
  handlers : c.handlers.Later c'.handlers

namespace Context.Later

variable {c c' c'' : Context}

theorem refl (c : Context) : c.Later c := ⟨.refl c, .refl _⟩

theorem trans (h : c.Later c') (h' : c'.Later c'') : c.Later c'' :=
  ⟨h.keeps.trans h'.keeps, h.handlers.trans h'.handlers⟩

theorem get? (h : c.Later c') (field : String) :
    c'.state.entries.get? field = c.state.entries.get? field := by
  obtain ⟨supply, hs⟩ := h.keeps.state
  rw [hs]

end Context.Later

namespace Template

variable {t : Template} {c c' : Context} {α : Type}

/-- The expressions that a template evaluates while it renders read the state and do not write to
it, with the methods that a context has. -/
def OnlyReads (t : Template) (c : Context) : Prop :=
  ∀ instr ∈ t.program.instrs.toList, ∀ e ∈ instr.exprs, ∀ scope s,
    ∃ supply, (e.eval (c.env t t.source scope) s).2 = { s with supply }

/-- A context in which a template can be rendered without a write, and whose handlers all have
tokens that were issued. -/
structure Ready (t : Template) (c : Context) : Prop where
  reads : t.OnlyReads c
  issued : ∀ e ∈ c.handlers.entries, e.token < c.handlers.next

theorem Ready.later (h : t.Ready c) (hl : c.Later c') : t.Ready c' := by
  refine ⟨?_, hl.handlers.issued h.issued⟩
  intro instr hi e he scope s
  have same : c'.env t t.source scope = c.env t t.source scope := by
    unfold Context.env
    rw [hl.keeps.props, hl.keeps.methods]
  rw [same]
  exact h.reads instr hi e he scope s

/-- A template whose expressions call no methods only reads. -/
theorem onlyReads_of_callsMethod
    (h : ∀ instr ∈ t.program.instrs.toList, ∀ e ∈ instr.exprs, e.callsMethod = false)
    (c : Context) : t.OnlyReads c := by
  intro instr hi e he scope s
  have agree : State.AgreeOn .exact e.reads s s := by
    refine ⟨fun f _ => ?_, fun _ => rfl⟩
    cases s.entries.get? f with
    | some v => exact .some rfl
    | none => exact .none
  obtain ⟨supply, -, -, hs, -⟩ := Similarity.eval_agrees
    (Similarity.exact_envRel (c.env t t.source scope)) (Expr.tame_exact (h instr hi e he) _) agree
    s.supply s.supply rfl
  exact ⟨supply, hs⟩

/-- An action of a program leads to a later context. -/
theorem Ready.follows (h : t.Ready c) {pc : Nat} {instr : Instr} {scope : Scope} {e : Expr}
    {m : StateM Context α} {f : Option Value → α} (hf : Follows t scope e m f)
    (hi : t.program.instrs[pc]? = some instr) (he : e ∈ instr.exprs) : c.Later (m c).2 := by
  obtain ⟨diagnostics, hm⟩ := hf.context c
  obtain ⟨supply, hs⟩ := h.reads instr (Array.mem_toList_iff.2 (Array.mem_of_getElem? hi)) e he
    scope c.state
  rw [hm, hs]
  exact ⟨⟨⟨supply, rfl⟩, rfl, rfl⟩, .refl _⟩

theorem releaseAll_later (nodes : List Node) (c : Context) : c.Later (releaseAll nodes c).2 := by
  have released : ∀ (tokens : List Registry.Token) (r : Registry CapturedHandler),
      r.Later (tokens.foldl (fun r token => (r.release token).2) r) := by
    intro tokens
    induction tokens with
    | nil => exact .refl
    | cons token rest ih =>
      intro r
      exact (Registry.Later.release r token).trans (ih _)
  exact ⟨releaseAll_keeps nodes c, released _ _⟩

end Template

theorem HandlerSource.attach_later (handler : HandlerSource) (scope : Scope) (c : Context) :
    c.Later (handler.attach scope c).2 := by
  unfold attach
  by_cases hi : handler.onlyIndices scope = true
  · simp only [if_pos hi]
    exact .refl c
  · simp only [if_neg hi]
    exact ⟨⟨⟨c.state.supply, rfl⟩, rfl, rfl⟩, .insert _ _ _⟩

/-! ## Captured variables -/

/-- A scope gives a variable a value. -/
def Scope.Gives (scope : Scope) (x : String) (v : Value) : Prop :=
  (scope.find? x).map Var.value = some v

/-- The variables of a loop hide those around it. -/
theorem Scope.Gives.inside {b : Scope} {x : String} {v : Value} (h : b.Gives x v) (a : Scope) :
    Scope.Gives (a ++ b) x v := by
  unfold Scope.Gives at h ⊢
  rw [Scope.find?_append]
  cases hb : b.find? x with
  | none =>
    rw [hb] at h
    cases h
  | some var =>
    rw [hb] at h
    exact h

theorem LoopBinding.find?_bind {binding : LoopBinding} {item : LoopItem} {x : String}
    (h : x ∉ binding.names) : Scope.find? (binding.bind item) x = none := by
  unfold Scope.find?
  rw [List.find?_eq_none]
  intro var hv hx
  rw [beq_iff_eq] at hx
  have named : x ∈ Scope.names (binding.bind item) :=
    hx ▸ List.mem_map_of_mem (List.mem_reverse.1 hv)
  rw [binding.names_bind item] at named
  refine h ((List.mem_append.1 named).elim (List.mem_append_left _) ?_)
  intro index
  split at index
  · exact List.mem_append_right _ index
  · cases index

theorem Scope.Gives.outside {scope : Scope} {x : String} {v : Value} (h : scope.Gives x v)
    {binding : LoopBinding} (hx : x ∉ binding.names) (item : LoopItem) :
    Scope.Gives (scope ++ binding.bind item) x v := by
  unfold Scope.Gives
  rw [Scope.find?_append, LoopBinding.find?_bind hx]
  exact h

/-- Whether the instruction at a position is a loop that binds a variable. -/
def Program.rebinds (program : Program) (pc : Nat) (x : String) : Bool :=
  match program.instrs[pc]? with
  | some (.openLoop _ binding _ _) => binding.names.contains x
  | _ => false

mutual

/-- The tokens in a node outside of the loops in it that bind a variable again. -/
def Node.ownTokens (program : Program) (x : String) : Node → List Registry.Token
  | .text _ | .html _ => []
  | .element e children => e.tokens ++ Nodes.ownTokens program x children
  | .block anchor children =>
    if program.rebinds anchor.start x then [] else Nodes.ownTokens program x children

def Nodes.ownTokens (program : Program) (x : String) : List Node → List Registry.Token
  | [] => []
  | n :: rest => n.ownTokens program x ++ Nodes.ownTokens program x rest

end

mutual

/-- The blocks in a node that are not inside of a loop in it that binds a variable again. -/
def Node.ownAnchors (program : Program) (x : String) : Node → List Anchor
  | .text _ | .html _ => []
  | .element _ children => Nodes.ownAnchors program x children
  | .block anchor children =>
    anchor :: if program.rebinds anchor.start x then [] else Nodes.ownAnchors program x children

def Nodes.ownAnchors (program : Program) (x : String) : List Node → List Anchor
  | [] => []
  | n :: rest => n.ownAnchors program x ++ Nodes.ownAnchors program x rest

end

/-- A token was issued, and what the registry has under it keeps the value for the variable, if it
reads the variable at all. -/
def Registry.Captures (r : Registry CapturedHandler) (x : String) (v : Value)
    (token : Registry.Token) : Prop :=
  token < r.next ∧ ∀ e ∈ r.entries, e.token = token →
    x ∈ e.value.source.locals → e.value.locals.lookup x = some v

/-- The handlers and the blocks of nodes have the value for the variable, where no inner loop binds
the variable again. -/
structure Nodes.Bound (program : Program) (r : Registry CapturedHandler) (x : String) (v : Value)
    (nodes : List Node) : Prop where
  tokens : ∀ token ∈ Nodes.ownTokens program x nodes, r.Captures x v token
  anchors : ∀ anchor ∈ Nodes.ownAnchors program x nodes, anchor.scope.Gives x v

theorem Registry.Captures.later {r r' : Registry CapturedHandler} {x : String} {v : Value}
    {token : Registry.Token} (h : r.Captures x v token) (hl : r.Later r') :
    r'.Captures x v token := by
  refine ⟨h.1.trans_le hl.next, ?_⟩
  intro e he ht
  exact h.2 e (hl.kept e he (ht ▸ h.1)) ht

namespace Nodes.Bound

variable {program : Program} {r r' : Registry CapturedHandler} {x : String} {v : Value}
  {a b nodes : List Node}

theorem later (h : Nodes.Bound program r x v nodes) (hl : r.Later r') :
    Nodes.Bound program r' x v nodes :=
  ⟨fun token ht => (h.tokens token ht).later hl, h.anchors⟩

theorem nil : Nodes.Bound program r x v [] :=
  ⟨fun _ h => absurd h List.not_mem_nil, fun _ h => absurd h List.not_mem_nil⟩

theorem cons_iff {n : Node} : Nodes.Bound program r x v (n :: nodes) ↔
    Nodes.Bound program r x v [n] ∧ Nodes.Bound program r x v nodes := by
  have single : Nodes.ownTokens program x [n] = n.ownTokens program x ∧
      Nodes.ownAnchors program x [n] = n.ownAnchors program x :=
    ⟨List.append_nil _, List.append_nil _⟩
  constructor
  · rintro ⟨ht, ha⟩
    constructor
    · constructor
      · rw [single.1]
        exact fun token h => ht token (List.mem_append_left _ h)
      · rw [single.2]
        exact fun anchor h => ha anchor (List.mem_append_left _ h)
    · constructor
      · exact fun token h => ht token (List.mem_append_right _ h)
      · exact fun anchor h => ha anchor (List.mem_append_right _ h)
  · rintro ⟨⟨ht, ha⟩, ⟨ht', ha'⟩⟩
    rw [single.1] at ht
    rw [single.2] at ha
    constructor
    · exact fun token h => (List.mem_append.1 h).elim (ht token) (ht' token)
    · exact fun anchor h => (List.mem_append.1 h).elim (ha anchor) (ha' anchor)

theorem append (ha : Nodes.Bound program r x v a) (hb : Nodes.Bound program r x v b) :
    Nodes.Bound program r x v (a ++ b) := by
  induction a with
  | nil => exact hb
  | cons n rest ih =>
    obtain ⟨first, others⟩ := cons_iff.1 ha
    exact cons_iff.2 ⟨first, ih others⟩

theorem element {e : Element} {children : List Node} :
    Nodes.Bound program r x v [.element e children] ↔
      (∀ token ∈ e.tokens, r.Captures x v token) ∧ Nodes.Bound program r x v children := by
  have tokens : Nodes.ownTokens program x [.element e children] =
      e.tokens ++ Nodes.ownTokens program x children := List.append_nil _
  have anchors : Nodes.ownAnchors program x [.element e children] =
      Nodes.ownAnchors program x children := List.append_nil _
  constructor
  · rintro ⟨ht, ha⟩
    rw [tokens] at ht
    rw [anchors] at ha
    exact ⟨fun token h => ht token (List.mem_append_left _ h),
      fun token h => ht token (List.mem_append_right _ h), ha⟩
  · rintro ⟨he, ht, ha⟩
    constructor
    · rw [tokens]
      exact fun token h => (List.mem_append.1 h).elim (he token) (ht token)
    · rw [anchors]
      exact ha

theorem block {anchor : Anchor} {children : List Node} :
    Nodes.Bound program r x v [.block anchor children] ↔
      anchor.scope.Gives x v ∧
        (program.rebinds anchor.start x = false → Nodes.Bound program r x v children) := by
  have tokens : Nodes.ownTokens program x [.block anchor children] =
      if program.rebinds anchor.start x then [] else Nodes.ownTokens program x children :=
    List.append_nil _
  have anchors : Nodes.ownAnchors program x [.block anchor children] =
      anchor :: if program.rebinds anchor.start x then [] else
        Nodes.ownAnchors program x children :=
    List.append_nil _
  constructor
  · rintro ⟨ht, ha⟩
    rw [anchors, List.forall_mem_cons] at ha
    refine ⟨ha.1, ?_⟩
    intro hx
    simp only [tokens, hx, Bool.false_eq_true, if_false] at ht ha
    exact ⟨ht, ha.2⟩
  · rintro ⟨hs, hc⟩
    cases hx : program.rebinds anchor.start x with
    | true =>
      constructor
      · simp [tokens, hx]
      · simpa [anchors, hx] using hs
    | false =>
      obtain ⟨ht, ha⟩ := hc hx
      constructor
      · simpa [tokens, hx] using ht
      · rw [anchors, List.forall_mem_cons, hx]
        exact ⟨hs, ha⟩

end Nodes.Bound

/-! ## Loops over a field -/

/-- An expression is a field of the state: by its name, or as a member of the state. -/
def Expr.IsField (field : String) : Expr → Prop
  | .root _ (.field f) => f = field
  | .member _ (.root _ .state) f _ => f = field
  | _ => False

/-- The instruction at a position is a loop over a field, with the given binding. -/
def Program.LoopsOver (program : Program) (field : String) (pc : Nat) (binding : LoopBinding) :
    Prop :=
  ∃ action collection stop, program.instrs[pc]? = some (.openLoop action binding collection stop) ∧
    collection.IsField field

/-- The nodes of a loop are rounds of the same length, one for each item, and each of them has the
variables of the loop as they are bound to its item. -/
def Rounds (program : Program) (r : Registry CapturedHandler) (binding : LoopBinding)
    (items : List LoopItem) (nodes : List Node) : Prop :=
  ∃ (rounds : List (List Node)) (n : Nat), nodes = rounds.flatten ∧
    List.Forall₂ (fun item round => round.length = n ∧
      ∀ x v, Scope.Gives (binding.bind item) x v → Nodes.Bound program r x v round) items rounds

/-- A block stands where the program has it. -/
def Anchor.Tied (program : Program) (anchor : Anchor) : Prop :=
  ∃ (p : Place) (b : Block), b.Hosted program p ∧ p.pc = anchor.start ∧ p.action = anchor.action

/-- The blocks of nodes stand where the program has them, and the loops over a field show the value
that the field holds, if one is given. -/
def Nodes.Current (program : Program) (r : Registry CapturedHandler) (field : String)
    (held : Option Value) (nodes : List Node) : Prop :=
  ∀ block ∈ blocksAll nodes, block.1.Tied program ∧
    ∀ v, held = some v → ∀ binding, program.LoopsOver field block.1.start binding →
      Rounds program r binding ((loopItems? v).getD []) block.2

theorem Rounds.later {program : Program} {r r' : Registry CapturedHandler} {binding : LoopBinding}
    {items : List LoopItem} {nodes : List Node} (h : Rounds program r binding items nodes)
    (hl : r.Later r') : Rounds program r' binding items nodes := by
  obtain ⟨rounds, n, flat, each⟩ := h
  refine ⟨rounds, n, flat, each.imp ?_⟩
  rintro item round ⟨length, bound⟩
  exact ⟨length, fun x v hx => (bound x v hx).later hl⟩

theorem blocksAll_append : ∀ a b : List Node, blocksAll (a ++ b) = blocksAll a ++ blocksAll b
  | [], _ => rfl
  | n :: rest, b => by
    rw [List.cons_append, blocksAll, blocksAll, blocksAll_append rest b, List.append_assoc]

namespace Nodes.Current

variable {program : Program} {r r' : Registry CapturedHandler} {field : String}
  {held : Option Value} {a b : List Node}

theorem later {nodes : List Node} (h : Nodes.Current program r field held nodes)
    (hl : r.Later r') : Nodes.Current program r' field held nodes := by
  intro block hb
  obtain ⟨tied, shows⟩ := h block hb
  exact ⟨tied, fun v hv binding ho => (shows v hv binding ho).later hl⟩

theorem of_none {nodes : List Node} (h : blocksAll nodes = []) :
    Nodes.Current program r field held nodes := by
  intro block hb
  rw [h] at hb
  cases hb

theorem weaken {nodes : List Node} {held' : Option Value}
    (h : Nodes.Current program r field held nodes)
    (hh : ∀ v, held' = some v → held = some v) : Nodes.Current program r field held' nodes :=
  fun block hb => ⟨(h block hb).1, fun v hv => (h block hb).2 v (hh v hv)⟩

theorem append_iff : Nodes.Current program r field held (a ++ b) ↔
    Nodes.Current program r field held a ∧ Nodes.Current program r field held b := by
  unfold Nodes.Current
  rw [blocksAll_append]
  constructor
  · intro h
    exact ⟨fun block hb => h block (List.mem_append_left _ hb),
      fun block hb => h block (List.mem_append_right _ hb)⟩
  · rintro ⟨ha, hb⟩ block hm
    exact (List.mem_append.1 hm).elim (ha block) (hb block)

theorem element {e : Element} {children : List Node} :
    Nodes.Current program r field held [.element e children] ↔
      Nodes.Current program r field held children := by
  unfold Nodes.Current
  rw [show blocksAll [.element e children] = blocksAll children from List.append_nil _]

theorem block {anchor : Anchor} {children : List Node} :
    Nodes.Current program r field held [.block anchor children] ↔
      (anchor.Tied program ∧ ∀ v, held = some v → ∀ binding,
        program.LoopsOver field anchor.start binding →
          Rounds program r binding ((loopItems? v).getD []) children) ∧
      Nodes.Current program r field held children := by
  unfold Nodes.Current
  rw [show blocksAll [.block anchor children] = (anchor, children) :: blocksAll children from
    List.append_nil _, List.forall_mem_cons]

end Nodes.Current

/-! ## Rendering -/

/-- From one context to a later one nodes were rendered: their handlers and blocks have the values
of the variables, and their loops over a field show what the field holds. -/
structure Renders (t : Template) (field : String) (vars : String → Value → Prop) (c : Context)
    (nodes : List Node) (c' : Context) : Prop where
  later : c.Later c'
  bound : ∀ x v, vars x v → Nodes.Bound t.program c'.handlers x v nodes
  current : Nodes.Current t.program c'.handlers field (c.state.entries.get? field) nodes

namespace Renders

variable {t : Template} {field : String} {vars vars' : String → Value → Prop}
  {c c' c'' : Context} {a b nodes : List Node}

theorem nil (h : c.Later c') : Renders t field vars c [] c' :=
  ⟨h, fun _ _ _ => .nil, .of_none rfl⟩

theorem weaken (h : Renders t field vars c nodes c') (hv : ∀ x v, vars' x v → vars x v) :
    Renders t field vars' c nodes c' :=
  ⟨h.later, fun x v hx => h.bound x v (hv x v hx), h.current⟩

theorem after (hl : c.Later c') (h : Renders t field vars c' nodes c'') :
    Renders t field vars c nodes c'' :=
  ⟨hl.trans h.later, h.bound, hl.get? field ▸ h.current⟩

theorem append (ha : Renders t field vars c a c') (hb : Renders t field vars c' b c'') :
    Renders t field vars c (a ++ b) c'' where
  later := ha.later.trans hb.later
  bound := fun x v hx => ((ha.bound x v hx).later hb.later.handlers).append (hb.bound x v hx)
  current := by
    refine Nodes.Current.append_iff.2 ⟨ha.current.later hb.later.handlers, ?_⟩
    rw [← ha.later.get? field]
    exact hb.current

end Renders

section

variable {t : Template} {field : String}

theorem HandlerSource.attach_captures (handler : HandlerSource) (scope : Scope) {c : Context}
    (hi : ∀ e ∈ c.handlers.entries, e.token < c.handlers.next) {x : String} {v : Value}
    (hx : scope.Gives x v) {token : Registry.Token}
    (ht : (handler.attach scope c).1 = .token token) :
    (handler.attach scope c).2.handlers.Captures x v token := by
  unfold attach at ht ⊢
  by_cases ho : handler.onlyIndices scope = true
  · simp only [if_pos ho] at ht
    cases ht
  · simp only [if_neg ho] at ht ⊢
    cases ht
    refine ⟨Nat.lt_succ_self _, ?_⟩
    intro e he htoken hx'
    rcases List.mem_append.1 (List.mem_of_mem_drop he) with he | he
    · exact absurd (hi e he) (by rw [htoken]; exact Nat.lt_irrefl _)
    · cases List.mem_singleton.1 he
      -- The entry that was made now keeps what the scope gives the variables of the handler.
      have kept : ∀ names : List String, x ∈ names →
          (names.map fun name => (name, ((scope.find? name).map Var.value).getD .null)).lookup x =
            some v := by
        intro names
        induction names with
        | nil => nofun
        | cons n rest ih =>
          intro hn
          rw [List.map_cons, lookup_cons_if]
          split
          case isTrue same =>
            subst same
            rw [show (scope.find? x).map Var.value = some v from hx]
            rfl
          case isFalse other => exact ih ((List.mem_cons.1 hn).resolve_left other)
      exact kept handler.locals hx'

theorem Features.render_captures (scope : Scope) : ∀ (features : List Feature) (p : Place)
    (e : Element) (c : Context), Features.Hosted t.program p features → t.Ready c →
      c.Later (Features.render t p scope e features c).2 ∧
        ∀ x v, scope.Gives x v → (∀ token ∈ e.tokens, c.handlers.Captures x v token) →
          ∀ token ∈ (Features.render t p scope e features c).1.tokens,
            (Features.render t p scope e features c).2.handlers.Captures x v token
  | [], _, _, c, _, _ => ⟨.refl c, fun _ _ _ h => h⟩
  | f :: rest, p, e, c, h, hc => by
    obtain ⟨hi, -, hr⟩ := h.cons
    have first : c.Later (f.render t p scope e c).2 ∧
        ∀ x v, scope.Gives x v → (∀ token ∈ e.tokens, c.handlers.Captures x v token) →
          ∀ token ∈ (f.render t p scope e c).1.tokens,
            (f.render t p scope e c).2.handlers.Captures x v token := by
      cases f with
      | plain name value => exact ⟨.refl c, fun _ _ _ h => h⟩
      | flag name => exact ⟨.refl c, fun _ _ _ h => h⟩
      | dynamic name expr =>
        have later : c.Later (t.attributeValue scope expr p.action c).2 :=
          hc.follows (t.attributeValue_follows scope expr p.action) hi (List.mem_singleton.2 rfl)
        exact ⟨later, fun x v _ he token ht => (he token ht).later later.handlers⟩
      | listener event handler =>
        have later := handler.attach_later scope c
        refine ⟨later, ?_⟩
        intro x v hx he token ht
        have tokens : token ∈ e.tokens ∨ (handler.attach scope c).1 = .token token := by
          change token ∈ Element.tokens
            { e with events := e.events ++ [⟨event, (handler.attach scope c).1⟩] } at ht
          unfold Element.tokens at ht ⊢
          rw [List.filterMap_append, List.mem_append] at ht
          rcases ht with ht | ht
          · exact .inl ht
          · right
            cases hh : (handler.attach scope c).1 <;> simp_all
        rcases tokens with ht | ht
        · exact (he token ht).later later.handlers
        · exact handler.attach_captures scope hc.issued hx ht
    obtain ⟨later, captures⟩ := first
    obtain ⟨later', captures'⟩ := Features.render_captures scope rest (p + f.room)
      (f.render t p scope e c).1 (f.render t p scope e c).2 hr (hc.later later)
    exact ⟨later.trans later', fun x v hx he => captures' x v hx (captures x v hx he)⟩

theorem EmitMode.nodes_renders {vars : String → Value → Prop} {c c' : Context} (hl : c.Later c')
    (v : Value) (mode : EmitMode) : Renders t field vars c (mode.nodes v) c' := by
  have bare : blocksAll (mode.nodes v) = [] ∧
      ∀ x, Nodes.ownTokens t.program x (mode.nodes v) = [] ∧
        Nodes.ownAnchors t.program x (mode.nodes v) = [] := by
    cases mode with
    | json => exact ⟨rfl, fun _ => ⟨rfl, rfl⟩⟩
    | _ =>
      simp only [nodes]
      rcases v.pageText? with _ | s <;> exact ⟨rfl, fun _ => ⟨rfl, rfl⟩⟩
  refine ⟨hl, ?_, .of_none bare.1⟩
  intro x w _
  constructor
  · simp [(bare.2 x).1]
  · simp [(bare.2 x).2]

/-- The rounds of a loop, one after the other. -/
theorem renders_rounds {scope : Scope} {binding : LoopBinding} {n : Nat}
    {body : LoopItem → StateM Context (List Node)}
    (h : ∀ item c, t.Ready c → (body item c).1.length = n ∧
      Renders t field (Scope.Gives (scope ++ binding.bind item)) c
        (body item c).1 (body item c).2) :
    ∀ (items : List LoopItem) (c : Context), t.Ready c →
      Renders t field (fun x v => scope.Gives x v ∧ x ∉ binding.names) c
          (items.mapM body c).1.flatten (items.mapM body c).2 ∧
        List.Forall₂ (fun item round => round.length = n ∧ ∀ x v,
          Scope.Gives (binding.bind item) x v →
            Nodes.Bound t.program (items.mapM body c).2.handlers x v round)
          items (items.mapM body c).1
  | [], c, _ => ⟨.nil (.refl c), .nil⟩
  | item :: rest, c, hc => by
    obtain ⟨length, first⟩ := h item c hc
    obtain ⟨others, each⟩ := renders_rounds h rest (body item c).2 (hc.later first.later)
    rw [List.mapM_cons]
    constructor
    · exact (first.weaken fun x v hx => hx.1.outside hx.2 item).append others
    · refine .cons ⟨length, ?_⟩ each
      intro x v hx
      exact (first.bound x v (hx.inside scope)).later others.later.handlers

/-- A field is read as what it holds. -/
theorem Expr.IsField.eval {e : Expr} (h : e.IsField field) (env : Env) {s : State} {v : Value}
    (hv : s.entries.get? field = some v) : e.eval env s = (.ok v, s) := by
  unfold Expr.IsField at h
  split at h
  · subst h
    have root : ∀ span f, s.entries.get? f = some v →
        env.root span (.field f) s = (.ok v, s) := by
      intro span f hf
      have found : s.value.get? f = some v := hf
      have got : (get : Effect State) s = (.ok s, s) := rfl
      dsimp only [Env.root]
      rw [stateful_bind_ok got, found]
      rfl
    rw [Expr.eval, Expr.chain, stateful_bind_ok (stateful_bind_ok (root _ _ hv) _)]
    rfl
  · subst h
    rename_i span outer f optional
    have state : (Expr.root outer .state).chain env s = (.ok (some s.value), s) := rfl
    have member : env.member s.value f span s = (.ok v, s) := by
      show ((Except.ok ((s.entries.get? f).getD .null) : Except Error Value), s) = _
      rw [hv]
      rfl
    have present : (optional && s.value.isNull) = false := by cases optional <;> rfl
    have chain : (Expr.member span (.root outer .state) f optional).chain env s =
        (.ok (some v), s) := by
      rw [Expr.chain, stateful_bind_ok state]
      simp only [present, Bool.false_eq_true, if_false]
      rw [stateful_bind_ok member]
      rfl
    rw [Expr.eval, stateful_bind_ok chain]
    rfl
  · cases h

/-- A block with its nodes, where those of a loop are its rounds. -/
theorem Renders.block (anchor : Anchor) {children : List Node} {c c' : Context}
    (tied : anchor.Tied t.program)
    (rounds : ∀ v, c.state.entries.get? field = some v → ∀ binding,
      t.program.LoopsOver field anchor.start binding →
        Rounds t.program c'.handlers binding ((loopItems? v).getD []) children)
    (inside : Renders t field
      (fun x v => anchor.scope.Gives x v ∧ t.program.rebinds anchor.start x = false)
      c children c') :
    Renders t field anchor.scope.Gives c [.block anchor children] c' where
  later := inside.later
  bound := fun x v hx => Nodes.Bound.block.2 ⟨hx, fun own => inside.bound x v ⟨hx, own⟩⟩
  current := Nodes.Current.block.2 ⟨⟨tied, rounds⟩, inside.current⟩

theorem Items.render_length (p : Place) (scope : Scope) : ∀ (items : List Item) (c : Context),
    (Items.render t p scope items c).1.length = items.length
  | [], _ => rfl
  | i :: rest, _ => congrArg (· + 1) (Items.render_length (p + i.room) scope rest _)

mutual

/-- Rendering a part gives its handlers and blocks the variables in scope. -/
theorem Item.renders (field : String) : ∀ (i : Item) (p : Place) (scope : Scope) (c : Context),
    i.Hosted t.program p → t.Ready c →
      Renders t field scope.Gives c [(i.render t p scope c).1] (i.render t p scope c).2
  | .text s, p, scope, c, _, _ =>
    ⟨.refl c, fun x v _ => ⟨fun _ h => absurd h List.not_mem_nil,
      fun _ h => absurd h List.not_mem_nil⟩, .of_none rfl⟩
  | .element tag key features children, p, scope, c, h, hc => by
    obtain ⟨-, hf, hch, -⟩ := h.element
    obtain ⟨later, captures⟩ := Features.render_captures scope features (p + .one)
      (.plain tag key) c hf hc
    have inside := Items.renders field children (p + (.one + Features.room features)) scope
      (Features.render t (p + .one) scope (.plain tag key) features c).2 hch (hc.later later)
    have whole := inside.after later
    refine ⟨whole.later, ?_, Nodes.Current.element.2 whole.current⟩
    intro x v hx
    refine Nodes.Bound.element.2 ⟨?_, whole.bound x v hx⟩
    intro token ht
    have own := captures x v hx (fun _ h => absurd h List.not_mem_nil) token ht
    exact own.later inside.later.handlers
  | .block b, p, scope, c, h, hc => Block.renders field b p scope c h hc

theorem Items.renders (field : String) : ∀ (items : List Item) (p : Place) (scope : Scope)
    (c : Context), Items.Hosted t.program p items → t.Ready c →
      Renders t field scope.Gives c (Items.render t p scope items c).1
        (Items.render t p scope items c).2
  | [], _, _, c, _, _ => .nil (.refl c)
  | i :: rest, p, scope, c, h, hc => by
    obtain ⟨hi, hr⟩ := h.cons
    have first := Item.renders field i p scope c hi hc
    exact first.append (Items.renders field rest (p + i.room) scope _ hr (hc.later first.later))

theorem Block.renders (field : String) : ∀ (b : Block) (p : Place) (scope : Scope) (c : Context),
    b.Hosted t.program p → t.Ready c →
      Renders t field scope.Gives c [.block (b.render t p scope c).1.1 (b.render t p scope c).1.2]
        (b.render t p scope c).2
  | .emit e mode, p, scope, c, h, hc => by
    have hi := h.emit.1
    have later : c.Later (t.emitted scope e mode p.action c).2 :=
      hc.follows (t.emitted_follows scope e mode p.action) hi (List.mem_singleton.2 rfl)
    refine .block ⟨p.action, p.pc, p.pc, scope⟩ ⟨p, .emit e mode, h, rfl, rfl⟩ ?_ ?_
    · rintro v - binding ⟨action, collection, stop, ho, -⟩
      cases hi.symm.trans ho
    · show Renders _ _ _ _ (t.emitted scope e mode p.action c).1 _
      rw [(t.emitted_follows scope e mode p.action).result]
      rcases t.value? c scope e with _ | v
      · exact .nil later
      · exact mode.nodes_renders later v
  | .chain clauses, p, scope, c, h, hc => by
    obtain ⟨hi, -, hcl, -⟩ := h.chain
    have inside := Clauses.renders field clauses (p + .acting) _ p.action scope c hcl hc
    refine .block ⟨p.action, p.pc, _, scope⟩ ⟨p, .chain clauses, h, rfl, rfl⟩ ?_
      (inside.weaken fun x v hx => hx.1)
    rintro v - binding ⟨action, collection, stop, ho, -⟩
    cases hi.symm.trans ho
  | .loop binding collection body, p, scope, c, h, hc => by
    obtain ⟨hi, -, -, hb, -, -⟩ := h.loop
    have later : c.Later (t.items scope collection p.action c).2 :=
      hc.follows (t.items_follows scope collection p.action) hi (List.mem_singleton.2 rfl)
    have round : ∀ item c, t.Ready c → (Items.render t (p + (.acting + .one))
        (scope ++ binding.bind item) body c).1.length = body.length ∧
        Renders t field (Scope.Gives (scope ++ binding.bind item)) c
          (Items.render t (p + (.acting + .one)) (scope ++ binding.bind item) body c).1
          (Items.render t (p + (.acting + .one)) (scope ++ binding.bind item) body c).2 := by
      intro item c hc
      exact ⟨Items.render_length _ _ body c,
        Items.renders field body _ (scope ++ binding.bind item) c hb hc⟩
    obtain ⟨rounds, each⟩ := renders_rounds round (t.items scope collection p.action c).1
      (t.items scope collection p.action c).2 (hc.later later)
    refine .block ⟨p.action, p.pc, _, scope⟩ ⟨p, .loop binding collection body, h, rfl, rfl⟩ ?_ ?_
    · rintro v hv binding' ⟨action, collection', stop, ho, isField⟩
      cases hi.symm.trans ho
      refine ⟨_, body.length, rfl, ?_⟩
      -- the loop is over the field, so its rounds are over what the field holds
      have items : (t.items scope collection p.action c).1 = (loopItems? v).getD [] := by
        rw [(t.items_follows scope collection p.action).result, Template.value?,
          isField.eval _ hv]
        rfl
      rw [← items]
      exact each
    · refine (rounds.after later).weaken ?_
      rintro x v ⟨hx, own⟩
      refine ⟨hx, ?_⟩
      have own : t.program.rebinds p.pc x = false := own
      rw [Program.rebinds, hi] at own
      simpa using own

theorem Clauses.renders (field : String) : ∀ (clauses : Clauses) (p : Place) (stop : Nat)
    (action : ActionId) (scope : Scope) (c : Context), clauses.Hosted t.program p stop →
      t.Ready c → Renders t field scope.Gives c (clauses.render t action p scope c).1
        (clauses.render t action p scope c).2
  | .done, _, _, _, _, c, _, _ => .nil (.refl c)
  | .otherwise body, p, _, _, scope, c, h, hc => Items.renders field body p scope c h hc
  | .clause test negate body rest, p, stop, action, scope, c, h, hc => by
    obtain ⟨hi, hb, -, hr⟩ := h.clause
    have later : c.Later (t.test scope test negate action c).2 :=
      hc.follows (t.test_follows scope test negate action) hi (List.mem_singleton.2 rfl)
    rw [Clauses.render_clause]
    generalize t.test scope test negate action c = outcome at later ⊢
    rcases outcome with ⟨_ | _ | _, c₁⟩
    · exact .nil later
    · exact (rest.renders field _ stop action scope c₁ hr (hc.later later)).after later
    · exact (Items.renders field body (p + .one) scope c₁ hb (hc.later later)).after later

end

end

/-! ## Updates -/

/-- Nodes took the place of others, one by one: what the old ones have for a variable, the new ones
have too. -/
def Carries (program : Program) (r r' : Registry CapturedHandler) : List Node → List Node → Prop :=
  List.Forall₂ fun n n' => ∀ x v, Nodes.Bound program r x v [n] → Nodes.Bound program r' x v [n']

theorem Nodes.Bound.carried {program : Program} {r r' : Registry CapturedHandler} {x : String}
    {v : Value} : ∀ {nodes nodes' : List Node}, Carries program r r' nodes nodes' →
      Nodes.Bound program r x v nodes → Nodes.Bound program r' x v nodes'
  | _, _, .nil, _ => .nil
  | _, _, .cons first others, h => by
    obtain ⟨hn, hr⟩ := cons_iff.1 h
    exact cons_iff.2 ⟨first x v hn, carried others hr⟩

/-- Nodes that come in rounds are replaced round by round. -/
theorem forall₂_flatten {α β : Type} {R : α → β → Prop} : ∀ {rounds : List (List α)} {bs : List β},
    List.Forall₂ R rounds.flatten bs →
      ∃ rounds', bs = rounds'.flatten ∧ List.Forall₂ (List.Forall₂ R) rounds rounds'
  | [], _, .nil => ⟨[], rfl, .nil⟩
  | round :: rest, bs, h => by
    rw [List.flatten_cons] at h
    have first : List.Forall₂ R round (bs.take round.length) := by
      simpa using List.forall₂_take round.length h
    have others : List.Forall₂ R rest.flatten (bs.drop round.length) := by
      simpa using List.forall₂_drop round.length h
    obtain ⟨rounds', flat, each⟩ := forall₂_flatten others
    refine ⟨bs.take round.length :: rounds', ?_, .cons first each⟩
    rw [List.flatten_cons, ← flat, List.take_append_drop]

theorem Rounds.carried {program : Program} {r r' : Registry CapturedHandler}
    {binding : LoopBinding} {items : List LoopItem} {nodes nodes' : List Node}
    (h : Rounds program r binding items nodes) (hc : Carries program r r' nodes nodes') :
    Rounds program r' binding items nodes' := by
  obtain ⟨rounds, n, rfl, each⟩ := h
  obtain ⟨rounds', rfl, replaced⟩ := forall₂_flatten hc
  refine ⟨rounds', n, rfl, ?_⟩
  clear hc
  induction replaced generalizing items with
  | nil =>
    cases each
    exact .nil
  | cons first _ ih =>
    cases each with
    | cons bound others =>
      refine .cons ⟨first.length_eq ▸ bound.1, ?_⟩ (ih others)
      exact fun x v hx => (bound.2 x v hx).carried first

/-- All loops over a field are among the actions that run again. -/
def Program.Reruns (program : Program) (field : String) (actions : List ActionId) : Prop :=
  ∀ (p : Place) (binding : LoopBinding) (collection : Expr) (body : List Item),
    (Block.loop binding collection body).Hosted program p → collection.IsField field →
      p.action ∈ actions

namespace Template

variable {t : Template} {field : String} {held held' : Option Value} {actions : List ActionId}

theorem updateAttributes_later (actions : List ActionId) :
    ∀ (bindings : List AttributeBinding) (e : Element) (c : Context),
      (∀ b ∈ bindings, ∃ name expr action,
        t.program.instrs[b.pc]? = some (.setAttributeExpr name expr action)) → t.Ready c →
      ∃ e' ran c', t.updateAttributes actions bindings e c = (.ok (e', ran), c') ∧
        e'.events = e.events ∧ c.Later c'
  | [], e, c, _, _ => ⟨e, [], c, rfl, rfl, .refl c⟩
  | b :: rest, e, c, h, hc => by
    obtain ⟨⟨name, expr, action, hi⟩, hr⟩ := List.forall_mem_cons.1 h
    by_cases ha : b.action ∈ actions
    · have later : c.Later (t.attributeValue b.scope expr action c).2 :=
        hc.follows (t.attributeValue_follows b.scope expr action) hi (List.mem_singleton.2 rfl)
      obtain ⟨e', ran, c', run, events, later'⟩ := updateAttributes_later actions rest
        (e.setAttr name (t.attributeValue b.scope expr action c).1)
        (t.attributeValue b.scope expr action c).2 hr (hc.later later)
      exact ⟨e', b.action :: ran, c', updateAttributes_again ha hi run, events, later.trans later'⟩
    · rw [updateAttributes_pass ha]
      exact updateAttributes_later actions rest e c hr hc

theorem loop_runs_again {anchor : Anchor} (tied : anchor.Tied t.program) {binding : LoopBinding}
    (hl : t.program.LoopsOver field anchor.start binding) (hr : t.program.Reruns field actions) :
    anchor.action ∈ actions := by
  obtain ⟨p, b, hosted, start, action⟩ := tied
  obtain ⟨id, collection, stop, hi, isField⟩ := hl
  rw [← start] at hi
  cases b with
  | emit e mode => cases hosted.emit.1.symm.trans hi
  | chain clauses => cases hosted.chain.1.symm.trans hi
  | loop binding' collection' body =>
    cases hosted.loop.1.symm.trans hi
    rw [← action]
    exact hr p binding collection body hosted isField

mutual

/-- Bringing a node up to date leaves what its handlers and blocks have for the variables, and its
loops over a field show what the field holds, if they did so before or all of them run again. -/
theorem updateNode_current (actions : List ActionId) : ∀ (n : Node) (c : Context),
    n.Anchored t.program → t.Ready c → Nodes.Current t.program c.handlers field held [n] →
      (∀ v, held' = some v → c.state.entries.get? field = some v ∧
        (held = some v ∨ t.program.Reruns field actions)) →
      ∃ n' ran c', t.updateNode actions n c = (.ok (n', ran), c') ∧ c.Later c' ∧
        Carries t.program c.handlers c'.handlers [n] [n'] ∧
        Nodes.Current t.program c'.handlers field held' [n']
  | .text s, c, _, _, _, _ =>
    ⟨.text s, [], c, rfl, .refl c, .cons (fun _ _ h => h) .nil, .of_none rfl⟩
  | .html s, c, _, _, _, _ =>
    ⟨.html s, [], c, rfl, .refl c, .cons (fun _ _ h => h) .nil, .of_none rfl⟩
  | .element e children, c, ha, hc, hn, ho => by
    obtain ⟨e', ran, c₁, attributes, events, later⟩ :=
      updateAttributes_later actions e.bindings e c ha.1 hc
    have before := (Nodes.Current.element.1 hn).later later.handlers
    rw [← later.get? field] at ho
    obtain ⟨children', more, c₂, inside, later', carries, current⟩ :=
      updateNodes_current actions children c₁ ha.2 (hc.later later) before ho
    refine ⟨_, _, _, updateNode_element attributes inside, later.trans later',
      .cons ?_ .nil, Nodes.Current.element.2 current⟩
    intro x v hb
    obtain ⟨tokens, within⟩ := Nodes.Bound.element.1 hb
    refine Nodes.Bound.element.2 ⟨?_, (within.later later.handlers).carried carries⟩
    intro token ht
    rw [Element.tokens, events] at ht
    exact (tokens token ht).later (later.trans later').handlers
  | .block anchor children, c, ha, hc, hn, ho => by
    obtain ⟨⟨tied, shows⟩, hn⟩ := Nodes.Current.block.1 hn
    by_cases again : anchor.action ∈ actions
    · -- The block is rendered anew with the variables that it remembers.
      obtain ⟨p, b, hosted, start, -⟩ := tied
      have released := releaseAll_later children c
      have renders := (Block.renders field b p anchor.scope _ hosted (hc.later released)).after
        released
      refine ⟨_, _, _, updateNode_again hosted start again children c, renders.later,
        .cons ?_ .nil, renders.current.weaken fun v hv => (ho v hv).1⟩
      intro x v hb
      exact renders.bound x v (Nodes.Bound.block.1 hb).1
    · obtain ⟨children', ran, c', inside, later, carries, current⟩ :=
        updateNodes_current actions children c ha.2 hc hn ho
      refine ⟨_, _, _, updateNode_block again inside, later, .cons ?_ .nil,
        Nodes.Current.block.2 ⟨⟨tied, ?_⟩, current⟩⟩
      · intro x v hb
        obtain ⟨given, within⟩ := Nodes.Bound.block.1 hb
        exact Nodes.Bound.block.2 ⟨given, fun own => (within own).carried carries⟩
      · intro v hv binding hl
        rcases (ho v hv).2 with same | reruns
        · exact (shows v same binding hl).carried carries
        · exact absurd (loop_runs_again tied hl reruns) again

theorem updateNodes_current (actions : List ActionId) : ∀ (nodes : List Node) (c : Context),
    Nodes.Anchored t.program nodes → t.Ready c →
      Nodes.Current t.program c.handlers field held nodes →
      (∀ v, held' = some v → c.state.entries.get? field = some v ∧
        (held = some v ∨ t.program.Reruns field actions)) →
      ∃ nodes' ran c', t.updateNodes actions nodes c = (.ok (nodes', ran), c') ∧ c.Later c' ∧
        Carries t.program c.handlers c'.handlers nodes nodes' ∧
        Nodes.Current t.program c'.handlers field held' nodes'
  | [], c, _, _, _, _ => ⟨[], [], c, rfl, .refl c, .nil, .of_none rfl⟩
  | n :: rest, c, ha, hc, hn, ho => by
    obtain ⟨hn, hr⟩ := Nodes.Current.append_iff.1 (show Nodes.Current _ _ _ _ ([n] ++ rest) from hn)
    obtain ⟨n', ran, c₁, first, later, carries, current⟩ :=
      updateNode_current actions n c ha.1 hc hn ho
    rw [← later.get? field] at ho
    obtain ⟨rest', more, c₂, others, later', carries', current'⟩ := updateNodes_current actions rest
      c₁ ha.2 (hc.later later) (hr.later later.handlers) ho
    refine ⟨_, _, _, updateNodes_cons first others, later.trans later', ?_, ?_⟩
    · cases carries with
      | cons same _ =>
        refine .cons (fun x v hb => (same x v hb).later later'.handlers) ?_
        refine carries'.imp ?_
        intro m m' hm x v hb
        exact hm x v (hb.later later.handlers)
    · exact (Nodes.Current.append_iff (a := [n'])).2 ⟨current.later later'.handlers, current'⟩

end

end Template

end LiveTemplate
