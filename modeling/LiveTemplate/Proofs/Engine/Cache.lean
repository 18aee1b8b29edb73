/-
The cache of an engine is transparent. Whatever is asked of an engine, in any order, each cached
template is one that compiling its source anew would give, up to its name and its number. So
answering from the cache shows only in which template object is handed out.
-/
import LiveTemplate.Engine
import LiveTemplate.Proofs.Computation

namespace LiveTemplate

/-! ## Requests -/

/-- What can be asked of an engine. -/
inductive Request where
  | compile (name : Option String) (source : String)
  | compileUncached (name : Option String) (source : String)
  | addFunction (name : String) (f : Function)
  | setLegacy (legacy : LegacyDialect)
  | setHandlerCapacity (capacity : Nat)
  | clearCache

/-- The engine after a request, also one that failed. -/
def Request.run (e : Engine) : Request → Engine
  | compile name source => (e.compileCached name source).2
  | compileUncached name source => (e.compileUncached name source).2
  | addFunction name f => e.addFunction name f
  | setLegacy legacy => e.setLegacy legacy
  | setHandlerCapacity capacity => e.setHandlerCapacity capacity
  | clearCache => e.clearCache

/-- Whether a request leaves the configuration alone and forgets no template. -/
def Request.isCompile : Request → Bool
  | compile .. | compileUncached .. => true
  | _ => false

/-- The engine after requests, one after the other. -/
def Engine.serve (e : Engine) (requests : List Request) : Engine := requests.foldl Request.run e

/-! ## Compiling anew -/

/-- Templates that differ in their name and their number at most. -/
structure Template.Twin (a b : Template) : Prop where
  source : a.source = b.source
  program : a.program = b.program
  dependencies : a.dependencies = b.dependencies
  functions : a.functions = b.functions
  handlerCapacity : a.handlerCapacity = b.handlerCapacity

/-- Results of compiling one source: the same error, or twins. -/
inductive SameResult : Except Error Template → Except Error Template → Prop where
  | error (err : Error) : SameResult (.error err) (.error err)
  | ok {a b : Template} (h : a.Twin b) : SameResult (.ok a) (.ok b)

/-- Engines that compile in the same way. -/
structure Engine.SameSetup (e e' : Engine) : Prop where
  functions : e'.functions = e.functions
  legacy : e'.legacy = e.legacy
  handlerCapacity : e'.handlerCapacity = e.handlerCapacity

namespace Engine

variable {e e' : Engine} {name name' : Option String} {source : String} {t : Template}

theorem SameSetup.trans {e'' : Engine} (h : e.SameSetup e') (h' : e'.SameSetup e'') :
    e.SameSetup e'' :=
  ⟨h'.functions.trans h.functions, h'.legacy.trans h.legacy,
    h'.handlerCapacity.trans h.handlerCapacity⟩

theorem compileSource_twin (setup : e.SameSetup e') (h : (e.compileSource name source).2 = .ok t) :
    ∃ t', (e'.compileSource name' source).2 = .ok t' ∧ t.Twin t' := by
  unfold compileSource at h ⊢
  rw [setup.functions, setup.handlerCapacity]
  dsimp only at h ⊢
  cases hc : (compile e.functions.contains source).program with
  | error fault =>
    rw [hc] at h
    cases h
  | ok program =>
    rw [hc] at h
    cases h
    exact ⟨_, rfl, ⟨rfl, rfl, rfl, rfl, rfl⟩⟩

/-- What a source compiles to depends on the configuration alone, up to name and number. -/
theorem build_twin (setup : e.SameSetup e') (name' : Option String)
    (h : (e.build name source).2 = .ok t) :
    ∃ t', (e'.build name' source).2 = .ok t' ∧ t.Twin t' := by
  unfold build at h ⊢
  rw [setup.legacy]
  split at h
  · rename_i hl
    rw [if_pos hl]
    cases hn : DoubleBrace.normalize source with
    | error err =>
      rw [hn] at h
      cases h
    | ok single =>
      rw [hn] at h
      exact compileSource_twin setup h
  · rename_i hl
    rw [if_neg hl]
    exact compileSource_twin setup h

theorem compileSource_serial (h : (e.compileSource name source).2 = .ok t) : t.serial = e.next := by
  unfold compileSource at h
  dsimp only at h
  split at h
  · cases h
  · cases h
    rfl

/-- A template that is built takes the next number. -/
theorem build_serial (h : (e.build name source).2 = .ok t) : t.serial = e.next := by
  unfold build at h
  split at h
  · split at h
    · cases h
    · exact compileSource_serial h
  · exact compileSource_serial h

/-! ## What a request does to the cache -/

theorem compileCached_of_hit (name : Option String) (h : e.cache.lookup source = some t) :
    e.compileCached name source = (([], .ok t), e) := by
  unfold compileCached
  rw [h]

/-- Compiling either finds the source in the cache, or builds it and keeps what compiles. -/
theorem compileCached_cases (e : Engine) (name : Option String) (source : String) :
    (∃ t, e.cache.lookup source = some t ∧ e.compileCached name source = (([], .ok t), e)) ∨
    (∃ t, e.cache.lookup source = none ∧ (e.build name source).2 = .ok t ∧
      e.compileCached name source = (((e.build name source).1, .ok t),
        { e with next := e.next + 1, cache := (source, t) :: e.cache })) ∨
    ∃ err, e.cache.lookup source = none ∧ (e.build name source).2 = .error err ∧
      e.compileCached name source = (((e.build name source).1, .error err),
        { e with next := e.next + 1 }) := by
  cases hit : e.cache.lookup source with
  | some t => exact .inl ⟨t, rfl, compileCached_of_hit name hit⟩
  | none =>
    unfold compileCached compileUncached
    rw [hit]
    dsimp only
    cases hb : (e.build name source).2 with
    | ok t => exact .inr (.inl ⟨t, rfl, rfl, rfl⟩)
    | error err => exact .inr (.inr ⟨err, rfl, rfl, rfl⟩)

/-- Every cached template was built from its source by an engine that was set up as this one is,
and has been numbered before. -/
structure Coherent (e : Engine) : Prop where
  built : ∀ {source : String} {t : Template}, e.cache.lookup source = some t →
    ∃ (e₀ : Engine) (name : Option String), e₀.SameSetup e ∧ (e₀.build name source).2 = .ok t
  numbered : ∀ entry ∈ e.cache, entry.2.serial < e.next

/-- Whatever the configuration has become, an empty cache is coherent with it. -/
theorem coherent_of_empty (h : e.cache = []) : e.Coherent := by
  constructor
  · intro source t hit
    rw [h] at hit
    cases hit
  · intro entry mem
    rw [h] at mem
    cases mem

theorem Coherent.bump (h : e.Coherent) : Coherent { e with next := e.next + 1 } := by
  constructor
  · intro source t hit
    obtain ⟨e₀, name, setup, built⟩ := h.built hit
    exact ⟨e₀, name, setup.trans ⟨rfl, rfl, rfl⟩, built⟩
  · intro entry mem
    exact Nat.lt_succ_of_lt (h.numbered entry mem)

theorem Coherent.remember (h : e.Coherent) (built : (e.build name source).2 = .ok t) :
    Coherent { e with next := e.next + 1, cache := (source, t) :: e.cache } := by
  constructor
  · intro source' t' hit
    rw [List.lookup_cons] at hit
    split at hit
    · rename_i same
      cases hit
      rw [beq_iff_eq.1 same]
      exact ⟨e, name, ⟨rfl, rfl, rfl⟩, built⟩
    · obtain ⟨e₀, name₀, setup, built₀⟩ := h.built hit
      exact ⟨e₀, name₀, setup.trans ⟨rfl, rfl, rfl⟩, built₀⟩
  · intro entry mem
    cases mem with
    | head =>
      rw [build_serial built]
      exact Nat.lt_succ_self _
    | tail _ mem => exact h.bump.numbered entry mem

/-- Requests keep the cache coherent: a compilation adds what it built, and every change of the
configuration leaves the cache empty. -/
theorem Coherent.run (h : e.Coherent) (r : Request) : (r.run e).Coherent := by
  cases r with
  | compile name source =>
    show (e.compileCached name source).2.Coherent
    obtain ⟨t, -, eq⟩ | ⟨t, -, built, eq⟩ | ⟨err, -, -, eq⟩ := compileCached_cases e name source
    · rw [eq]
      exact h
    · rw [eq]
      exact h.remember built
    · rw [eq]
      exact h.bump
  | compileUncached name source => exact h.bump
  | addFunction name f => exact coherent_of_empty rfl
  | setLegacy legacy => exact coherent_of_empty rfl
  | setHandlerCapacity capacity => exact coherent_of_empty rfl
  | clearCache => exact coherent_of_empty rfl

theorem Coherent.serve (h : e.Coherent) (requests : List Request) :
    (e.serve requests).Coherent := by
  induction requests generalizing e with
  | nil => exact h
  | cons r requests ih => exact ih (h.run r)

/-- A cached template stays in the cache as long as only compilations follow. -/
theorem lookup_run {r : Request} (hr : r.isCompile) (hit : e.cache.lookup source = some t) :
    (r.run e).cache.lookup source = some t := by
  cases r with
  | compile name source' =>
    show (e.compileCached name source').2.cache.lookup source = some t
    obtain ⟨t', -, eq⟩ | ⟨t', miss, -, eq⟩ | ⟨err, -, -, eq⟩ := compileCached_cases e name source'
    · rw [eq]
      exact hit
    · have other : source ≠ source' := by
        rintro rfl
        rw [hit] at miss
        cases miss
      rw [eq, List.lookup_cons, beq_eq_false_iff_ne.2 other]
      exact hit
    · rw [eq]
      exact hit
  | compileUncached name source' => exact hit
  | addFunction | setLegacy | setHandlerCapacity | clearCache => cases hr

theorem lookup_serve {requests : List Request} (hr : ∀ r ∈ requests, r.isCompile)
    (hit : e.cache.lookup source = some t) :
    (e.serve requests).cache.lookup source = some t := by
  induction requests generalizing e with
  | nil => exact hit
  | cons r requests ih =>
    obtain ⟨first, rest⟩ := List.forall_mem_cons.1 hr
    exact ih rest (lookup_run first hit)

/-! ## Transparency -/

/-- With a coherent cache, answers are those that compiling anew gives. -/
theorem Coherent.sameResult (h : e.Coherent) (name : Option String) (source : String) :
    SameResult (e.compileCached name source).1.2 (e.compileUncached name source).1.2 := by
  unfold compileUncached
  obtain ⟨t, hit, eq⟩ | ⟨t, -, built, eq⟩ | ⟨err, -, failed, eq⟩ := compileCached_cases e name source
  · obtain ⟨e₀, name₀, setup, built₀⟩ := h.built hit
    obtain ⟨t', built, twin⟩ := build_twin setup name built₀
    rw [eq, built]
    exact .ok twin
  · rw [eq, built]
    exact .ok ⟨rfl, rfl, rfl, rfl, rfl⟩
  · rw [eq, failed]
    exact .error err

theorem cache_of_error {err : Error} (h : (e.compileCached name source).1.2 = .error err) :
    (e.compileCached name source).2.cache = e.cache := by
  obtain ⟨t, -, eq⟩ | ⟨t, -, -, eq⟩ | ⟨err', -, -, eq⟩ := compileCached_cases e name source
  · rw [eq]
  · rw [eq] at h
    cases h
  · rw [eq]

theorem lookup_of_ok (h : (e.compileCached name source).1.2 = .ok t) :
    (e.compileCached name source).2.cache.lookup source = some t := by
  obtain ⟨t', hit, eq⟩ | ⟨t', -, -, eq⟩ | ⟨err, -, -, eq⟩ := compileCached_cases e name source
  · rw [eq] at h ⊢
    cases h
    exact hit
  · rw [eq] at h ⊢
    cases h
    exact List.lookup_cons_self
  · rw [eq] at h
    cases h

/-- The cache is transparent, whatever an engine has been asked before. Compiling a source gives
the error or, up to name and number, the template that compiling it anew gives at that moment. A
failed compilation leaves the cache as it is. A compiled source gives the very same template again,
under any name, until the configuration is changed or the cache is cleared; and the number of a
template tells it apart from those that are built anew. -/
theorem cache_transparent (requests : List Request) (name : Option String) (source : String) :
    let e := Engine.new.serve requests
    SameResult (e.compileCached name source).1.2 (e.compileUncached name source).1.2 ∧
    (∀ err, (e.compileCached name source).1.2 = .error err →
      (e.compileCached name source).2.cache = e.cache) ∧
    (∀ t, (e.compileCached name source).1.2 = .ok t →
      ∀ more : List Request, (∀ r ∈ more, r.isCompile) → ∀ name' : Option String,
        (((e.compileCached name source).2.serve more).compileCached name' source).1.2 = .ok t) ∧
    ∀ t, (e.compileUncached name source).1.2 = .ok t →
      ∀ entry ∈ e.cache, entry.2.serial ≠ t.serial := by
  have coherent : (Engine.new.serve requests).Coherent := (coherent_of_empty rfl).serve requests
  refine ⟨coherent.sameResult name source, ?_, ?_, ?_⟩
  · intro err failed
    exact cache_of_error failed
  · intro t compiled more only name'
    rw [compileCached_of_hit name' (lookup_serve only (lookup_of_ok compiled))]
  · intro t built entry mem
    rw [build_serial built]
    exact Nat.ne_of_lt (coherent.numbered entry mem)

/-- A template that was compiled under another name after the last change of the configuration,
and compiles again to the same object. -/
theorem cache_transparent_reconfigured :
    let source := "\x7bx\x7d"
    let requests : List Request :=
      [.compile (some "a") source, .setHandlerCapacity 3, .compile (some "b") source]
    let more : List Request := [.compileUncached none source, .compile none "\x7b#if x\x7d"]
    ∃ t, ((Engine.new.serve requests).compileCached none source).1.2 = .ok t ∧
      (t.name, t.handlerCapacity, t.serial) = (some "b", 3, 1) ∧
      ((((Engine.new.serve requests).compileCached none source).2.serve more).compileCached
        (some "c") source).1.2 = .ok t := by
  intro source requests more
  have hit : ((Engine.new.serve requests).compileCached none source).1.2.toOption.map
      (fun t => (t.name, t.handlerCapacity, t.serial)) = some (some "b", 3, 1) := by
    decide +kernel
  obtain ⟨t, ht, fields⟩ := Option.map_eq_some_iff.1 hit
  obtain ⟨-, -, again, -⟩ := cache_transparent requests none source
  have only : ∀ r ∈ more, r.isCompile := by decide
  exact ⟨t, ok_of_toOption ht, fields, again t (ok_of_toOption ht) more only (some "c")⟩

end Engine

end LiveTemplate
