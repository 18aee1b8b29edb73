/-
Regions do not matter. The names of an expression are resolved alike wherever it was read from, and
its evaluation gives the same but for the places that errors refer to.
-/
import LiveTemplate.Expr.Eval
import LiveTemplate.Proofs.Computation
import LiveTemplate.Proofs.Expr.Parsing
import LiveTemplate.Proofs.Expr.Resolved

namespace LiveTemplate

/-! ## Resolution -/

@[simp] theorem Expr.isSelf_bare (e : Expr) : e.bare.isSelf = e.isSelf := by
  cases e <;> simp [bare, isSelf]

/-- One computation fails where another does, and else gives its result after a function. -/
def Mirrors {α β : Type} (f : α → β) (x : Except Fault α) (y : Except Fault β) : Prop :=
  y.toOption = x.toOption.map f

namespace Mirrors

variable {α β γ δ : Type} {f : α → β} {g : γ → δ}

theorem pure (a : α) : Mirrors f (Pure.pure a) (Pure.pure (f a)) := rfl

theorem throw (e e' : Fault) : Mirrors f (throwThe Fault e) (throwThe Fault e') := rfl

theorem bind {x : Except Fault α} {y : Except Fault β} {k : α → Except Fault γ} {l : β → Except Fault δ}
    (h : Mirrors f x y) (hk : ∀ a, Mirrors g (k a) (l (f a))) : Mirrors g (x >>= k) (y >>= l) := by
  unfold Mirrors at h
  rcases x with e | a <;> rcases y with e' | b
  · rfl
  · cases h
  · cases h
  · cases h
    exact hk a

theorem ok {x : Except Fault α} {y : Except Fault β} {a : α} (h : Mirrors f x y) (hx : x = .ok a) :
    y = .ok (f a) := by
  subst hx
  rcases y with e | b
  · cases h
  · cases h
    rfl

theorem of_ok {x : Except Fault α} {y : Except Fault β} {b : β} (h : Mirrors f x y) (hy : y = .ok b) :
    ∃ a, x = .ok a ∧ f a = b := by
  subst hy
  rcases x with e | a
  · cases h
  · cases h
    exact ⟨a, rfl, rfl⟩

end Mirrors

mutual

/-- The regions of an expression do not matter for what its names refer to. -/
theorem Expr.resolve_bare (scope : NameScope) : ∀ e : Expr,
    Mirrors Expr.bare (e.resolve scope) (e.bare.resolve scope)
  | .literal .. | .root .. | .self .. | .name .. => rfl
  | .template s parts => by
    rw [Expr.bare, Expr.resolve, Expr.resolve]
    exact (resolveParts_bare scope parts).bind fun parts => .pure _
  | .member s o p optional => by
    by_cases h : o.isSelf = false ∨ optional = true
    · have hb : o.bare.isSelf = false ∨ optional = true := by rwa [Expr.isSelf_bare]
      rw [Expr.bare, Expr.resolve_member_object h, Expr.resolve_member_object hb]
      exact (o.resolve_bare scope).bind fun o => .pure _
    · obtain ⟨u, rfl, rfl⟩ := Expr.self_of_not h
      rfl
  | .index s o i optional => by
    rw [Expr.bare, Expr.resolve, Expr.resolve]
    exact (o.resolve_bare scope).bind fun o => (i.resolve_bare scope).bind fun i =>
      .pure _
  | .call s callee args => by
    have ha := resolveAll_bare scope args
    -- what a call is depends on the form of its callee, which loses nothing but its place
    cases callee with
    | name t n =>
      rw [Expr.bare, Expr.bare, Expr.resolve, Expr.resolve]
      refine ha.bind fun args => ?_
      split
      · exact .throw _ _
      · split
        · exact .pure _
        · exact .pure _
    | member t o p optional =>
      have ho := o.resolve_bare scope
      cases o with
      | self u =>
        cases optional
        · exact ha.bind fun args => .pure _
        · exact ha.bind fun args => .pure _
      | name u n =>
        rw [Expr.bare, Expr.bare, Expr.bare, Expr.resolve, Expr.resolve]
        refine ha.bind fun args => ?_
        split
        · dsimp only
          split
          · exact .pure _
          · exact .throw _ _
        · exact .pure _
      | _ => exact ha.bind fun args => ho.bind fun o => .pure _
    | _ => exact ha.bind fun args => .throw _ _
  | .method s n args => by
    rw [Expr.bare, Expr.resolve, Expr.resolve]
    exact (resolveAll_bare scope args).bind fun args => .pure _
  | .function s n args => by
    rw [Expr.bare, Expr.resolve, Expr.resolve]
    exact (resolveAll_bare scope args).bind fun args => .pure _
  | .unary s op e => by
    rw [Expr.bare, Expr.resolve, Expr.resolve]
    exact (e.resolve_bare scope).bind fun e => .pure _
  | .binary s op l r => by
    rw [Expr.bare, Expr.resolve, Expr.resolve]
    exact (l.resolve_bare scope).bind fun l => (r.resolve_bare scope).bind fun r =>
      .pure _
  | .conditional s c t e => by
    rw [Expr.bare, Expr.resolve, Expr.resolve]
    exact (c.resolve_bare scope).bind fun c => (t.resolve_bare scope).bind fun t =>
      (e.resolve_bare scope).bind fun e => .pure _
  | .array s items => by
    rw [Expr.bare, Expr.resolve, Expr.resolve]
    exact (resolveAll_bare scope items).bind fun items => .pure _
  | .object s entries => by
    rw [Expr.bare, Expr.resolve, Expr.resolve]
    exact (resolveEntries_bare scope entries).bind fun entries => .pure _
  | .arrow .. => rfl

theorem resolveAll_bare (scope : NameScope) : ∀ es : List Expr,
    Mirrors bareAll (resolveAll scope es) (resolveAll scope (bareAll es))
  | [] => rfl
  | e :: rest => by
    rw [bareAll, resolveAll, resolveAll]
    exact (e.resolve_bare scope).bind fun e => (resolveAll_bare scope rest).bind fun rest =>
      .pure _

theorem resolveEntries_bare (scope : NameScope) : ∀ entries : List (String × Expr),
    Mirrors bareEntries (resolveEntries scope entries) (resolveEntries scope (bareEntries entries))
  | [] => rfl
  | (k, e) :: rest => by
    rw [bareEntries, resolveEntries, resolveEntries]
    exact (e.resolve_bare scope).bind fun e => (resolveEntries_bare scope rest).bind fun rest =>
      .pure _

theorem resolveParts_bare (scope : NameScope) : ∀ parts : List TemplatePart,
    Mirrors bareParts (resolveParts scope parts) (resolveParts scope (bareParts parts))
  | [] => rfl
  | .text t :: rest => by
    rw [bareParts, resolveParts, resolveParts]
    exact (resolveParts_bare scope rest).bind fun rest => .pure _
  | .hole e :: rest => by
    rw [bareParts, resolveParts, resolveParts]
    exact (e.resolve_bare scope).bind fun e => (resolveParts_bare scope rest).bind fun rest =>
      .pure _

end

theorem Expr.resolveHandler_bare (scope : NameScope) (e : Expr) :
    Mirrors (fun h => ⟨h.expr.bare, h.expr.bare.boundNames⟩) (e.resolveHandler scope)
      (e.bare.resolveHandler scope) := by
  cases e with
  | arrow s params body => exact (body.resolve_bare _).bind fun _ => .pure _
  | _ => exact (Expr.resolve_bare scope _).bind fun _ => .pure _

/-- A handler that differs from another one in its regions only is resolved where the other one is,
to the same up to regions. -/
theorem Expr.resolveHandler_alike {scope : NameScope} {e e' : Expr} {handler : HandlerSource}
    (h : e.bare = e'.bare) (hr : e.resolveHandler scope = .ok handler) :
    ∃ handler', e'.resolveHandler scope = .ok handler' ∧ handler'.expr.bare = handler.expr.bare := by
  have bare := (e.resolveHandler_bare scope).ok hr
  rw [h] at bare
  obtain ⟨handler', hr', same⟩ := (e'.resolveHandler_bare scope).of_ok bare
  exact ⟨handler', hr', congrArg HandlerSource.expr same⟩

/-! ## Evaluation -/

/-- An error without the place it refers to. -/
def Error.placeless (e : Error) : Error := { e with location := none }

@[simp] theorem Error.placeless_locate (source : String) (span : Span) (e : Error) :
    (e.locate source span).placeless = e.placeless := by
  unfold Error.locate
  split <;> rfl

/-- Two computations do the same, the places of errors apart. -/
def Alike {α : Type} (m m' : Effect α) : Prop :=
  ∀ s, (m s).1.mapError Error.placeless = (m' s).1.mapError Error.placeless ∧ (m s).2 = (m' s).2

namespace Alike

variable {α β : Type}

theorem refl (m : Effect α) : Alike m m := fun _ => ⟨rfl, rfl⟩

theorem symm {m m' : Effect α} (h : Alike m m') : Alike m' m :=
  fun s => ⟨(h s).1.symm, (h s).2.symm⟩

theorem trans {m m' m'' : Effect α} (h : Alike m m') (h' : Alike m' m'') : Alike m m'' :=
  fun s => ⟨(h s).1.trans (h' s).1, (h s).2.trans (h' s).2⟩

theorem bind {m m' : Effect α} {f f' : α → Effect β} (h : Alike m m') (hf : ∀ a, Alike (f a) (f' a)) :
    Alike (m >>= f) (m' >>= f') := by
  intro s
  obtain ⟨result, state⟩ := h s
  rw [stateful_bind, stateful_bind]
  rcases hm : m s with ⟨e | a, t⟩ <;> rcases hm' : m' s with ⟨e' | a', t'⟩ <;>
    rw [hm, hm'] at result state
  · have errors : e.placeless = e'.placeless := Except.error.inj result
    exact ⟨congrArg Except.error errors, state⟩
  · cases result
  · cases result
  · cases result
    cases state
    exact hf a t

theorem fail (env env' : Env) (cause : Cause) (span span' : Span) :
    Alike (env.fail cause span : Effect α) (env'.fail cause span') := fun _ => ⟨rfl, rfl⟩

theorem within (env env' : Env) (span span' : Span) (m : Effect α) :
    Alike (env.within span m) (env'.within span' m) := by
  intro s
  refine ⟨?_, rfl⟩
  show ((m s).1.mapError _).mapError _ = ((m s).1.mapError _).mapError _
  rcases (m s).1 with e | a
  · simp [Except.mapError]
  · rfl

end Alike

section

variable (env : Env) (source : String) (s s' : Span)

theorem Env.root_alike (r : Root) : Alike (env.root s r) (Env.root { env with source } s' r) := by
  cases r with
  | bound n =>
    unfold Env.root
    dsimp only
    split
    · exact .refl _
    · exact .fail _ _ _ _ _
  | field n =>
    unfold Env.root
    refine (Alike.refl _).bind fun state => ?_
    dsimp only
    split
    · exact .refl _
    · exact .fail _ _ _ _ _
  | _ => exact .refl _

theorem Env.member_alike (v : Value) (p : String) :
    Alike (env.member v p s) (Env.member { env with source } v p s') := by
  unfold Env.member
  split
  · exact .fail _ _ _ _ _
  · exact .refl _
  · exact .refl _

theorem Env.index_alike (v i : Value) : Alike (env.index v i s) (Env.index { env with source } v i s') := by
  unfold Env.index
  split
  · exact .fail _ _ _ _ _
  all_goals exact .refl _

theorem Env.callMethod_alike (n : String) (args : List Value) :
    Alike (env.callMethod n args s) (Env.callMethod { env with source } n args s') := by
  unfold Env.callMethod
  dsimp only
  split
  · exact .within _ _ _ _ _
  · exact .fail _ _ _ _ _

end

mutual

/-- The regions of an expression and the source they refer to do not matter for its value. -/
theorem Expr.chain_bare (env : Env) (source : String) : ∀ e : Expr,
    Alike (e.chain env) (e.bare.chain { env with source })
  | .literal .. => .refl _
  | .template s parts => (chainParts_bare env source parts).bind fun _ => .refl _
  | .name .. => .fail _ _ _ _ _
  | .self s => (Env.root_alike env source s default .component).bind fun _ => .refl _
  | .root s r => (Env.root_alike env source s default r).bind fun _ => .refl _
  | .member s o p optional => by
    rw [Expr.bare, Expr.chain, Expr.chain]
    refine (o.chain_bare env source).bind fun found => ?_
    split
    · exact .refl _
    · split
      · exact .refl _
      · exact (Env.member_alike env source s default _ p).bind fun _ => .refl _
  | .index s o i optional => by
    rw [Expr.bare, Expr.chain, Expr.chain]
    refine (o.chain_bare env source).bind fun found => ?_
    split
    · exact .refl _
    · split
      · exact .refl _
      · exact (i.chain_bare env source).bind fun _ => (Env.index_alike env source s default _ _).bind fun _ => .refl _
  | .call s callee args => by
    cases callee with
    | member t o p optional =>
      rw [Expr.bare, Expr.bare, Expr.chain, Expr.chain]
      refine (o.chain_bare env source).bind fun found => ?_
      split
      · exact .refl _
      · split
        · exact .refl _
        · split
          · exact .fail _ _ _ _ _
          · exact (chainAll_bare env source args).bind fun _ => (Alike.within _ _ _ _ _).bind fun _ => .refl _
    | _ => exact .fail _ _ _ _ _
  | .method s n args => (chainAll_bare env source args).bind fun _ =>
      (Env.callMethod_alike env source s default n _).bind fun _ => .refl _
  | .function s n args => by
    rw [Expr.bare, Expr.chain, Expr.chain]
    refine (chainAll_bare env source args).bind fun _ => ?_
    dsimp only
    split
    · exact (Alike.within _ _ _ _ _).bind fun _ => .refl _
    · exact .fail _ _ _ _ _
  | .unary s op e => (e.chain_bare env source).bind fun _ => .refl _
  | .binary s op l r => by
    rw [Expr.bare, Expr.chain, Expr.chain]
    refine (l.chain_bare env source).bind fun _ => ?_
    dsimp only
    split
    · exact .refl _
    · exact (r.chain_bare env source).bind fun _ => .refl _
  | .conditional s c t e => by
    rw [Expr.bare, Expr.chain, Expr.chain]
    refine (c.chain_bare env source).bind fun _ => ?_
    split
    · exact (t.chain_bare env source).bind fun _ => .refl _
    · exact (e.chain_bare env source).bind fun _ => .refl _
  | .array s items => (chainAll_bare env source items).bind fun _ => .refl _
  | .object s entries => (chainEntries_bare env source entries).bind fun _ => .refl _
  | .arrow .. => .fail _ _ _ _ _

theorem chainAll_bare (env : Env) (source : String) : ∀ es : List Expr,
    Alike (chainAll env es) (chainAll { env with source } (bareAll es))
  | [] => .refl _
  | e :: rest => (e.chain_bare env source).bind fun _ =>
      (chainAll_bare env source rest).bind fun _ => .refl _

theorem chainEntries_bare (env : Env) (source : String) : ∀ entries : List (String × Expr),
    Alike (chainEntries env entries) (chainEntries { env with source } (bareEntries entries))
  | [] => .refl _
  | (_, e) :: rest => (e.chain_bare env source).bind fun _ =>
      (chainEntries_bare env source rest).bind fun _ => .refl _

theorem chainParts_bare (env : Env) (source : String) : ∀ parts : List TemplatePart,
    Alike (chainParts env parts) (chainParts { env with source } (bareParts parts))
  | [] => .refl _
  | .text _ :: rest => (chainParts_bare env source rest).bind fun _ => .refl _
  | .hole e :: rest => (e.chain_bare env source).bind fun _ =>
      (chainParts_bare env source rest).bind fun _ => .refl _

end

theorem Expr.invoke_bare (env : Env) (source : String) (event : Value) (e : Expr) :
    Alike (e.invoke env event) (e.bare.invoke { env with source } event) := by
  have plain (env : Env) (e : Expr) : Alike (e.eval env) (e.bare.eval { env with source }) :=
    (e.chain_bare env source).bind fun _ => .refl _
  cases e with
  | arrow s params body => exact plain _ body
  | root s r =>
    cases r with
    | field n =>
      unfold Expr.invoke
      rw [Expr.bare]
      dsimp only
      split
      · exact Env.callMethod_alike env source s default n _
      · exact plain env (.root s (.field n))
    | _ => exact plain env _
  | _ => exact plain env _

/-- Expressions that differ in their regions only do the same when they are invoked. -/
theorem Expr.invoke_alike (env : Env) (source : String) (event : Value) {e e' : Expr}
    (h : e.bare = e'.bare) : Alike (e.invoke env event) (e'.invoke { env with source } event) := by
  have first := e.invoke_bare env source event
  have second := e'.invoke_bare { env with source } source event
  rw [← h] at second
  exact first.trans second.symm

end LiveTemplate
