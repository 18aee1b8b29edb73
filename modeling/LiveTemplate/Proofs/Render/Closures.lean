/-
Handlers as closures. What a handler does in a scope depends on the variables that it lists and on
nothing else in the scope: with these alone, holding what they hold there, it does the same. So does
the handler with their values put in place of them, which needs no variables any more. Both go back
to one lemma on substitution, since the scope of the captured variables is one in which the values
could be put in place just as well. The parameters of an arrow function are its own; a variable of
the same name is hidden by them, whether it is in scope or its value is put in.
-/
import LiveTemplate.Proofs.Expr.Bound
import LiveTemplate.Proofs.Expr.Substitution
import LiveTemplate.Render.Interpreter

namespace LiveTemplate

/-- What a name holds in a scope where all variables of this name hold one value. -/
theorem Scope.find?_value {scope : Scope} {n : String} {v : Value} (hn : n ∈ scope.names)
    (h : ∀ var ∈ scope, var.name = n → var.value = v) : (scope.find? n).map Var.value = some v := by
  obtain ⟨var, found⟩ := Scope.find?_of_mem hn
  have named : var.name = n := by simpa using List.find?_some found
  rw [found, Option.map_some, h var (List.mem_reverse.1 (List.mem_of_find?_eq_some found)) named]

theorem Scope.find?_append_single {scope : Scope} {var : Var} {n : String} (h : n ≠ var.name) :
    Scope.find? (scope ++ [var]) n = scope.find? n := by
  have other : Scope.find? [var] n = none := by simp [Scope.find?, Ne.symm h]
  rw [Scope.find?_append, other, Option.none_or]

namespace HandlerSource

variable {handler : HandlerSource} {scope : Scope}

/-- The scope in which a handler that was kept with its variables is invoked. -/
def capturedScope (handler : HandlerSource) (scope : Scope) : Scope :=
  (handler.capture scope).map fun (name, v) => ⟨name, v, false⟩

theorem capturedScope_names (handler : HandlerSource) (scope : Scope) :
    (handler.capturedScope scope).names = handler.locals := by
  simp [capturedScope, capture, Scope.names, Function.comp_def]

/-- A variable of a handler is captured with what it holds. -/
theorem lookup_capture {n : String} (hn : n ∈ handler.locals) (bound : n ∈ scope.names) :
    (handler.capture scope).lookup n = (scope.find? n).map Var.value := by
  obtain ⟨var, found⟩ := Scope.find?_of_mem bound
  rw [capture, lookup_map_self hn, found]
  rfl

/-- In the scope of the captured variables each of them holds what it was captured with. -/
theorem find?_capturedScope {n : String} (hn : n ∈ handler.locals) (bound : n ∈ scope.names) :
    ((handler.capturedScope scope).find? n).map Var.value = (handler.capture scope).lookup n := by
  obtain ⟨var, found⟩ := Scope.find?_of_mem bound
  rw [lookup_capture hn bound, found]
  refine Scope.find?_value (by rwa [capturedScope_names]) fun kept hk same => ?_
  simp only [capturedScope, capture, List.map_map, List.mem_map] at hk
  obtain ⟨m, -, rfl⟩ := hk
  have same : m = n := same
  subst same
  simp [found]

/-- A handler that was read where some variables are in scope is a closure over the ones it lists.
Wherever all of them are in scope, invoking it with only the listed ones in scope, each holding what
it holds there, gives the same outcome and the same state as invoking it there, for every event,
state, props and methods; and so does invoking it with their values put in place of them where
nothing is in scope. A parameter of an arrow function hides the variables of its name in both. -/
theorem closure_of_captured {knows : String → Bool} {loopVars : List String} {region : Region}
    (accepted : (Expr.parse region >>= Expr.resolveHandler ⟨knows, loopVars, []⟩) = .ok handler)
    (env : Env) (bound : ∀ n ∈ loopVars, n ∈ env.scope.names) (event : Value) :
    let values := handler.capture env.scope
    let captured := handler.capturedScope env.scope
    (captured.names = handler.locals ∧
      ∀ n ∈ handler.locals, ∃ v, (env.scope.find? n).map Var.value = some v ∧
        (captured.find? n).map Var.value = some v) ∧
    handler.expr.invoke { env with scope := captured } event = handler.expr.invoke env event ∧
    (handler.expr.substitute values).invoke { env with scope := [] } event =
      handler.expr.invoke env event ∧
    ∀ s params body, handler.expr = .arrow s params body → ∀ p ∈ params, p ∉ handler.locals ∧
      ∀ v isIndex,
        handler.expr.invoke { env with scope := captured ++ [⟨p, v, isIndex⟩] } event =
          handler.expr.invoke env event ∧
        handler.expr.substitute ((p, v) :: values) = handler.expr.substitute values := by
  intro values captured
  obtain ⟨raw, -, resolved⟩ := results_of_bind accepted
  have locals_eq : handler.locals = handler.expr.boundNames := Expr.locals_of_resolveHandler resolved
  have inScope {n : String} (hn : n ∈ handler.locals) : n ∈ env.scope.names :=
    bound n (locals_of_read accepted n hn)
  have given {n : String} (hn : n ∈ handler.locals) :
      ∃ v, (env.scope.find? n).map Var.value = some v ∧ values.lookup n = some v ∧
        (captured.find? n).map Var.value = some v := by
    obtain ⟨var, found⟩ := Scope.find?_of_mem (inScope hn)
    have value : values.lookup n = some var.value := by
      rw [lookup_capture hn (inScope hn), found]
      rfl
    exact ⟨var.value, by rw [found]; rfl, value, (find?_capturedScope hn (inScope hn)).trans value⟩
  -- Any scope in which the listed variables hold their values does what the substituted handler does.
  have substituted {inner : Scope}
      (h : ∀ n ∈ handler.locals, (inner.find? n).map Var.value = values.lookup n) :
      (handler.expr.substitute values).invoke { env with scope := [] } event =
        handler.expr.invoke { env with scope := inner } event := by
    refine Expr.invoke_substitute env event fun n hn => ?_
    rw [← locals_eq] at hn
    obtain ⟨v, -, value, -⟩ := given hn
    exact ⟨h n hn, by rw [value]; rfl⟩
  have whole : (handler.expr.substitute values).invoke { env with scope := [] } event =
      handler.expr.invoke env event := @substituted env.scope fun n hn => by
    obtain ⟨v, held, value, -⟩ := given hn
    rw [held, value]
  have kept (n : String) (hn : n ∈ handler.locals) :
      (captured.find? n).map Var.value = values.lookup n := by
    obtain ⟨v, -, value, held⟩ := given hn
    rw [held, value]
  refine ⟨⟨capturedScope_names handler env.scope, fun n hn => ?_⟩,
    (substituted kept).symm.trans whole, whole, ?_⟩
  · obtain ⟨v, held, -, held'⟩ := given hn
    exact ⟨v, held, held'⟩
  · intro s params body arrow p hp
    have own : p ∉ handler.locals := by
      rw [locals_eq, arrow, Expr.boundNames, List.mem_filter]
      simp [hp]
    refine ⟨own, fun v isIndex => ⟨?_, ?_⟩⟩
    · refine (substituted fun n hn => ?_).symm.trans whole
      have other : n ≠ p := fun same => own (same ▸ hn)
      rw [Scope.find?_append_single other, kept n hn]
    · rw [arrow, Expr.substitute, Expr.substitute, List.filter_cons_of_neg (by simp [hp])]

/-- An arrow function in two loops. Its parameter hides the variable of the inner loop that has the
same name, so only the item of the outer loop and the position in the inner one are captured. -/
theorem closure_of_captured_arrow :
    let source := "x => pick(x, row, i)"
    let loopVars := ["row", "index", "x", "i"]
    let pick : Method := fun args => return .text (",".intercalate (Value.displayAll args))
    let env : Env :=
      { source, functions := fun _ => none, props := .map 0 [],
        methods := fun name => if name = "pick" then some pick else none,
        scope := [⟨"row", .text "r", false⟩, ⟨"index", .int 0, true⟩, ⟨"x", .int 7, false⟩,
          ⟨"i", .int 2, true⟩] }
    let s : State := ⟨1, [], [], ⟨2⟩⟩
    let text (r : Except Error Value) : Option String := r.toOption.bind Value.text?
    ∃ handler, (Expr.parse (.whole source) >>= Expr.resolveHandler ⟨fun _ => false, loopVars, []⟩) =
        .ok handler ∧
      handler.locals = ["i", "row"] ∧ (∀ n ∈ loopVars, n ∈ env.scope.names) ∧
      text (handler.expr.invoke env (.text "e") s).1 = some "e,r,2" ∧
      (handler.expr.invoke { env with scope := handler.capturedScope env.scope } (.text "e") =
        handler.expr.invoke env (.text "e") ∧
      (handler.expr.substitute (handler.capture env.scope)).invoke { env with scope := [] }
        (.text "e") = handler.expr.invoke env (.text "e")) := by
  intro source loopVars pick env s text
  have facts : (Expr.parse (.whole source) >>=
      Expr.resolveHandler ⟨fun _ => false, loopVars, []⟩).toOption.map (fun handler =>
        (handler.locals, text (handler.expr.invoke env (.text "e") s).1)) =
      some (["i", "row"], some "e,r,2") := by
    decide +kernel
  obtain ⟨handler, accepted, facts⟩ := Option.map_eq_some_iff.1 facts
  obtain ⟨locals, value⟩ := Prod.mk.inj facts
  replace accepted := ok_of_toOption accepted
  have bound : ∀ n ∈ loopVars, n ∈ env.scope.names := by decide
  obtain ⟨-, captured, substituted, -⟩ := closure_of_captured accepted env bound (.text "e")
  exact ⟨handler, accepted, locals, bound, value, captured, substituted⟩

end HandlerSource

end LiveTemplate
