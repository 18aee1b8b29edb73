/-
Errors and their places. The place of an error is valid if its span takes whole characters of the
source that the error carries. Compiling reports placed errors only; so does evaluating an
expression that lies in its source, as long as methods and functions do.
-/
import LiveTemplate.Engine
import LiveTemplate.Proofs.Expr.Effects
import LiveTemplate.Proofs.Functions.Similarity
import LiveTemplate.Proofs.Location.Templates

namespace LiveTemplate

open Text

/-! ## Valid places -/

/-- The ends of a location are in order, lie within its source and stand between characters, so
that cutting the source there gives all bytes of the span. -/
structure Location.Valid (l : Location) : Prop where
  ordered : l.span.start ≤ l.span.stop
  inside : l.span.stop ≤ l.source.utf8ByteSize
  start : String.Pos.Raw.IsValid l.source ⟨l.span.start⟩
  stop : String.Pos.Raw.IsValid l.source ⟨l.span.stop⟩
  cut : byteLength (slice l.span.start l.span.stop l.source.toList) = l.span.stop - l.span.start

/-- An error without a place, or with a valid one. -/
def Error.Placed (e : Error) : Prop := ∀ l ∈ e.location, l.Valid

theorem byteLength_ofList (cs : List Char) : byteLength cs = (String.ofList cs).utf8ByteSize := by
  rw [String.utf8ByteSize_ofList]
  induction cs with
  | nil => rfl
  | cons c cs ih => rw [byteLength, String.utf8Len_cons, ih, Nat.add_comm]

theorem Text.Boundary.isValid {source : String} {n : Nat} (h : Boundary source.toList n) :
    String.Pos.Raw.IsValid source ⟨n⟩ := by
  obtain ⟨before, after, eq, length⟩ := h
  refine String.Pos.Raw.isValid_iff_exists_append.2 ⟨.ofList before, .ofList after, ?_, ?_⟩
  · rw [← String.ofList_append, ← eq, String.ofList_toList]
  · rw [String.Pos.Raw.ext_iff, String.byteIdx_rawEndPos, ← byteLength_ofList, length]

theorem Location.valid_of_fits {source : String} {span : Span} (h : span.Fits source.toList) :
    Location.Valid ⟨source, span⟩ where
  ordered := h.ordered
  inside := h.stop.isValid.le_rawEndPos
  start := h.start.isValid
  stop := h.stop.isValid
  cut := h.byteLength_slice

namespace Error

theorem placed_bare (cause : Cause) : (bare cause).Placed := fun _ h => nomatch h

theorem placed_located {source : String} {span : Span} (h : span.Fits source.toList)
    (cause : Cause) : (located cause source span).Placed := by
  rintro _ ⟨⟩
  exact Location.valid_of_fits h

theorem Placed.named {e : Error} (h : e.Placed) (template : Option String) :
    (e.named template).Placed := by
  unfold Error.named
  split <;> exact h

theorem Placed.locate {e : Error} (h : e.Placed) {source : String} {span : Span}
    (hs : span.Fits source.toList) : (e.locate source span).Placed := by
  unfold Error.locate
  split
  · rintro _ ⟨⟩
    exact Location.valid_of_fits hs
  · exact h

end Error

/-- A computation whose errors are placed. -/
def Reports {α : Type} (x : Except Error α) : Prop := ∀ e, x = .error e → e.Placed

namespace Reports

variable {α β : Type} {x : Except Error α}

theorem ok (a : α) : Reports (.ok a : Except Error α) := nofun

theorem error {e : Error} (h : e.Placed) : Reports (.error e : Except Error α) := by
  rintro _ ⟨⟩
  exact h

theorem named (h : Reports x) (template : Option String) :
    Reports (x.mapError (Error.named template)) := by
  cases x with
  | error e => exact .error ((h e rfl).named template)
  | ok a => exact .ok a

/-- A fault becomes a placed error in the text that it was found in. -/
theorem ofFault {P : α → Prop} {source : String} {y : Except Fault α}
    (h : Locates source.toList P y) : Reports (y.mapError (Error.ofFault source)) := by
  cases y with
  | error fault => exact .error (Error.placed_located h _)
  | ok a => exact .ok a

theorem ofFault_bind {P : α → Prop} {source : String} {y : Except Fault α}
    {f : α → Except Error β} (h : Locates source.toList P y) (hf : ∀ a, P a → Reports (f a)) :
    Reports (y.mapError (Error.ofFault source) >>= f) := by
  cases y with
  | error fault => exact .error (Error.placed_located h _)
  | ok a => exact hf a h

end Reports

/-! ## Compiling -/

theorem DoubleBrace.normalize_reports (source : String) : Reports (normalize source) := by
  have whole (cs : List Char) : Region.Within (String.ofList cs).toList ⟨0, cs⟩ :=
    ⟨[], [], by simp, rfl⟩
  unfold normalize
  split
  · exact .ok _
  · refine Reports.ofFault_bind (collect_located _ (whole _)) fun fragments hf => ?_
    refine Reports.ofFault_bind (expandAll_located hf) fun expanded _ => ?_
    exact Reports.ofFault_bind (convert_located _ (whole expanded)) fun _ _ => .ok _

theorem Engine.build_reports (engine : Engine) (name : Option String) (source : String) :
    Reports (engine.build name source).2 := by
  have direct (source : String) : Reports (engine.compileSource name source).2 := by
    have located := compile_located engine.functions.contains source
    unfold compileSource
    dsimp only
    cases hc : (compile engine.functions.contains source).program with
    | error fault =>
      rw [hc] at located
      exact .error ((Error.placed_located located _).named name)
    | ok program => exact .ok _
  unfold build
  split
  · have converted := DoubleBrace.normalize_reports source
    cases hn : DoubleBrace.normalize source with
    | error e => exact .error ((converted e hn).named name)
    | ok source => exact direct source
  · exact direct source

/-! ## Functions -/

/-- A computation with a state whose errors are placed. -/
def StatefulReports {σ α : Type} (m : ExceptT Error (StateM σ) α) : Prop := ∀ s, Reports (m s).1

namespace StatefulReports

variable {σ α β : Type} {m : ExceptT Error (StateM σ) α}

theorem pure (a : α) : StatefulReports (Pure.pure a : ExceptT Error (StateM σ) α) := fun _ => .ok a

theorem throw {e : Error} (h : e.Placed) :
    StatefulReports (throwThe Error e : ExceptT Error (StateM σ) α) :=
  fun _ => .error h

theorem bind {f : α → ExceptT Error (StateM σ) β} (h : StatefulReports m)
    (hf : ∀ a, StatefulReports (f a)) : StatefulReports (m >>= f) := by
  intro s
  have first := h s
  rw [stateful_bind]
  generalize m s = result at first ⊢
  rcases result with ⟨e | a, s'⟩
  · exact .error (first e rfl)
  · exact hf a s'

theorem mapM {f : α → ExceptT Error (StateM σ) β} (h : ∀ a, StatefulReports (f a)) :
    ∀ xs : List α, StatefulReports (xs.mapM f)
  | [] => by
    rw [List.mapM_nil]
    exact .pure _
  | x :: xs => by
    rw [List.mapM_cons]
    exact (h x).bind fun _ => (mapM h xs).bind fun _ => .pure _

/-- A computation that cannot fail. -/
theorem lift (m : StateM σ α) : StatefulReports (liftM m : ExceptT Error (StateM σ) α) :=
  fun s => .ok (m s).1

end StatefulReports

/-- The errors of a function are placed, whatever it is given. -/
def Function.Placed (f : Function) : Prop := ∀ args, StatefulReports (f args)

/-- The errors of all functions are placed. -/
def Functions.Placed (functions : Functions) : Prop :=
  ∀ name f, functions.get? name = some f → f.Placed

theorem entriesOf_reports (name : String) (v : Value) : Reports (Builtin.entriesOf name v) := by
  unfold Builtin.entriesOf
  split
  · exact .ok _
  · exact .ok _
  · exact .error (Error.placed_bare _)

theorem builtinList_placed : ∀ e ∈ builtinList, Function.Placed e.2 := by
  have plain (f : List Value → Value) : Function.Placed (Builtin.plain f) := fun args => .pure _
  have ofEntries (name : String) (v : Value) : StatefulReports
      (liftM (Builtin.entriesOf name v) : ExceptT Error Fresh (List (String × Value))) :=
    fun _ => entriesOf_reports name v
  simp only [builtinList, List.forall_mem_cons, List.not_mem_nil, false_imp_iff, implies_true,
    and_true, plain, true_and]
  refine ⟨fun args => ?_, fun args => ?_, fun args => ?_⟩
  · exact (ofEntries _ _).bind fun entries =>
      (StatefulReports.mapM (fun _ => .lift _) entries).bind fun pairs => .lift _
  · exact (ofEntries _ _).bind fun entries => .lift _
  · show StatefulReports (Builtin.values args)
    unfold Builtin.values
    split
    · exact .pure _
    · exact (ofEntries _ _).bind fun entries => .lift _

theorem builtins_placed : builtins.Placed := fun _ _ hf => builtins_forall builtinList_placed hf

theorem Value.callMethod_reports (v : Value) (name : String) (args : List Value) :
    StatefulReports (v.callMethod name args) := by
  unfold Value.callMethod
  dsimp only
  split
  · exact .lift _
  · split
    · exact .pure _
    · exact .throw (Error.placed_bare _)

/-! ## Evaluation -/

/-- The methods and functions of an environment report placed errors only. -/
structure Env.Placed (env : Env) : Prop where
  methods : ∀ name method, env.methods name = some method → ∀ args, StatefulReports (method args)
  functions : ∀ name f, env.functions name = some f → f.Placed

namespace Env.Placed

variable {env : Env}

/-- An error without a place gets the place of the expression that caused it. -/
theorem within {α : Type} {span : Span} (hs : span.Fits env.source.toList) {effect : Effect α}
    (h : StatefulReports effect) : StatefulReports (env.within span effect) := by
  intro s
  have first := h s
  show Reports ((effect s).1.mapError _)
  generalize (effect s).1 = result at first ⊢
  cases result with
  | error e => exact .error ((first e rfl).locate hs)
  | ok a => exact .ok a

/-- A function draws marks from the supply of the state. -/
theorem callFunction {call : ExceptT Error Fresh Value} (h : StatefulReports call) {span : Span}
    (hs : span.Fits env.source.toList) : StatefulReports (env.callFunction call span) :=
  within hs fun s => h s.supply

/-- Reporting placed errors only is closed, at places in the source. -/
theorem closed (h : env.Placed) : env.Closed (Span.Fits env.source.toList) StatefulReports where
  pure := .pure
  bind := .bind
  fail cause _ hs := .throw (Error.placed_located hs cause)
  read := fun _ => .ok _
  alloc _ := fun _ => .ok _
  method found args _ hs := within hs (h.methods _ _ found args)
  function found args _ hs := callFunction (h.functions _ _ found args) hs
  valueMethod v name args _ hs := callFunction (v.callMethod_reports name args) hs

/-- Evaluating an expression that lies in the source reports placed errors only. -/
theorem eval (h : env.Placed) {e : Expr} (hf : e.Fits env.source.toList) :
    StatefulReports (e.eval env) :=
  h.closed.eval hf

/-- Running a handler that lies in the source reports placed errors only. -/
theorem invoke (h : env.Placed) (event : Value) {e : Expr} (hf : e.Fits env.source.toList) :
    StatefulReports (e.invoke env event) :=
  h.closed.invoke event hf

end Env.Placed

end LiveTemplate
