/-
Handlers that stand as code in a page. Where a handler reads no loop variables, or only indices, its
code is printed with the indices put in. If no part of this code is read differently than it was
printed, dispatching the code does what the handler does in its scope, and only the places of errors
are others.
-/
import LiveTemplate.Component
import LiveTemplate.Engine
import LiveTemplate.Proofs.Expr.Legible
import LiveTemplate.Proofs.Expr.Parsed

namespace LiveTemplate

open Text Grammar

/-! ## Scopes of loops -/

/-- The variables of loops around a place, each at an item whose position fits an integer. -/
inductive Scope.FromLoops : Scope → Prop where
  | page : FromLoops []
  | loop {scope : Scope} (h : FromLoops scope) (b : LoopBinding) (item : LoopItem)
      (hp : item.position < 2 ^ 63) : FromLoops (scope ++ b.bind item)

/-- An index holds a number without a sign. -/
theorem LoopBinding.bind_index {b : LoopBinding} {item : LoopItem} (hp : item.position < 2 ^ 63)
    {var : Var} (hv : var ∈ b.bind item) (hi : var.isIndex = true) :
    ∃ i : Int64, 0 ≤ i ∧ var.value = .int i := by
  have position : 0 ≤ Int64.ofNat item.position := by
    rw [Int64.le_iff_toInt_le, Int64.toInt_ofNat_of_lt hp]
    simp
  refine ⟨_, position, ?_⟩
  unfold LoopBinding.bind at hv
  dsimp only at hv
  split at hv
  · simp at hv
  · simp only [List.mem_cons, Option.mem_toList, Option.map_eq_some_iff] at hv
    rcases hv with rfl | ⟨p, -, rfl⟩
    · cases hi
    · rfl
  · simp only [List.mem_cons, List.not_mem_nil, or_false] at hv
    rcases hv with rfl | rfl
    · cases hi
    · rfl
  · simp only [List.mem_cons, List.not_mem_nil, or_false] at hv
    rcases hv with rfl | rfl <;> cases hi
  · simp only [List.mem_cons, List.mem_map] at hv
    rcases hv with rfl | rfl | rfl | ⟨p, -, rfl⟩
    · split at hi
      · cases hi
      · rfl
    · cases hi
    · rfl
    · cases hi

theorem Scope.FromLoops.index {scope : Scope} (h : scope.FromLoops) {var : Var} (hv : var ∈ scope)
    (hi : var.isIndex = true) : ∃ i : Int64, 0 ≤ i ∧ var.value = .int i := by
  induction h with
  | page => cases hv
  | loop h b item hp ih =>
    rcases List.mem_append.1 hv with hv | hv
    · exact ih hv
    · exact LoopBinding.bind_index hp hv hi

/-! ## Captured variables -/

/-- A variable of a handler that reads only indices is given what it holds. -/
theorem HandlerSource.capture_index {handler : HandlerSource} {scope : Scope}
    (h : handler.onlyIndices scope = true) (loops : scope.FromLoops) {n : String}
    (hn : n ∈ handler.locals) : ∃ i : Int64, 0 ≤ i ∧
      (scope.find? n).map Var.value = some (.int i) ∧
        (handler.capture scope).lookup n = some (.int i) := by
  have index := List.all_eq_true.1 h n hn
  cases hf : scope.find? n with
  | none =>
    rw [hf] at index
    cases index
  | some var =>
    rw [hf] at index
    obtain ⟨i, hi, value⟩ := loops.index (List.mem_reverse.1 (List.mem_of_find?_eq_some hf)) index
    refine ⟨i, hi, by rw [Option.map_some, value], ?_⟩
    rw [HandlerSource.capture, lookup_map_self hn, hf, Option.map_some, value]
    rfl

/-! ## Reading code -/

theorem tokenize_blank {region : Region} (h : (trim region.text).isEmpty = true) :
    tokenize region = .ok [] := by
  have all : ∀ c ∈ region.text, isBlank c = true := by
    have rest : ∀ c ∈ region.text.dropWhile isBlank, isBlank c = true := by
      simpa [trim, trimEnd, trimStart, List.dropWhile_eq_nil_iff] using h
    have front := List.head?_dropWhile_not isBlank region.text
    rw [← List.dropWhile_eq_nil_iff]
    rcases hr : region.text.dropWhile isBlank with _ | ⟨c, more⟩
    · rfl
    · rw [hr] at front rest
      have blank := rest c (by simp)
      simp [blank] at front
  have blank : (region.dropWhile isBlank).text = [] := by
    show region.text.drop (region.text.takeWhile isBlank).length = []
    rw [List.takeWhile_eq_self_iff.2 all, List.drop_length]
  unfold tokenize
  cases region.text.length with
  | zero => rfl
  | succ n =>
    rw [tokens]
    dsimp only
    rw [blank]

/-- What can be parsed is not blank. -/
theorem Expr.not_blank_of_parse {region : Region} {e : Expr} (h : Expr.parse region = .ok e) :
    (trim region.text).isEmpty = false := by
  by_contra blank
  rw [Bool.not_eq_false] at blank
  rw [Expr.parse, Nat.mul_add, show 8 * 2 = 15 + 1 from rfl, ← Nat.add_assoc, parseRegion,
    tokenize_blank blank] at h
  cases h

theorem Component.readHandler_print {t : Template} {y : Expr} {handler : HandlerSource}
    (hw : y.source.Written) (hp : y.source.Reprintable)
    (hr : y.source.resolveHandler ⟨t.functions.contains, [], []⟩ = .ok handler) :
    ∃ handler', readHandler t y.print = .ok handler' ∧ handler'.expr.bare = handler.expr.bare := by
  have again := hw.parse_print hp 0
  rw [y.print_source] at again
  rcases parsed : Expr.parse (.whole y.print) with fault | e
  · rw [show Region.mk 0 y.print.toList = .whole y.print from rfl, parsed] at again
    cases again
  · rw [show Region.mk 0 y.print.toList = .whole y.print from rfl, parsed] at again
    obtain ⟨handler', hr', same⟩ := Expr.resolveHandler_alike (Except.ok.inj again).symm hr
    refine ⟨handler', ?_, same⟩
    have some : ¬ (trim y.print.toList).isEmpty = true := by
      rw [Bool.not_eq_true]
      exact Expr.not_blank_of_parse parsed
    rw [readHandler, if_neg some, parsed]
    show (e.resolveHandler _).mapError _ = _
    rw [hr']
    rfl

/-! ## Dispatching code -/

/-- Naming the template of an error does not concern its place. -/
theorem mapError_named {α : Type} {x y : Except Error α} (template : Option String)
    (h : x.mapError Error.placeless = y.mapError Error.placeless) :
    (x.mapError (Error.named template)).mapError Error.placeless =
      (y.mapError (Error.named template)).mapError Error.placeless := by
  have named (e : Error) : (e.named template).placeless = e.placeless.named template := by
    rcases e with ⟨cause, _ | name, location⟩ <;> rfl
  rcases x with e | a <;> rcases y with e' | b
  · have errors : e.placeless = e'.placeless := Except.error.inj h
    show Except.error (e.named template).placeless = Except.error (e'.named template).placeless
    rw [named, named, errors]
  · cases h
  · cases h
  · cases h
    rfl

theorem Component.invokeSource_alike {c : Component} {handler handler' : HandlerSource}
    {source source' : String} {scope scope' : Scope} {event : Value}
    (h : Alike (handler.expr.invoke (c.context.env c.template source scope) event)
      (handler'.expr.invoke (c.context.env c.template source' scope') event)) :
    (c.invokeSource handler source scope event).1.mapError Error.placeless =
        (c.invokeSource handler' source' scope' event).1.mapError Error.placeless ∧
      (c.invokeSource handler source scope event).2 =
        (c.invokeSource handler' source' scope' event).2 := by
  obtain ⟨result, state⟩ := h c.context.state
  refine ⟨mapError_named c.template.name result, ?_⟩
  exact congrArg (fun s => ({ c with context := { c.context with state := s } } : Component)) state

/-- Dispatching the code of a handler does what the handler does where it stands. -/
theorem Component.dispatch_inline {c : Component} {b : Builder} {region : Region}
    {handler : HandlerSource} {scope : Scope} {context : Context} {code : String}
    (compiled : b.handler c.template.functions.contains region = .ok handler) (loops : scope.FromLoops)
    (attached : (handler.attach scope context).1 = .inline code)
    (safe : (handler.expr.substitute (handler.capture scope)).source.Reprintable) (event : Value) :
    let direct := c.invokeSource handler c.template.source scope event
    (c.dispatch (.inline code) event).1.mapError Error.placeless = direct.1.mapError Error.placeless ∧
      (c.dispatch (.inline code) event).2 = direct.2.flush.2 := by
  intro direct
  obtain ⟨raw, parsed, resolved⟩ := results_of_bind compiled
  obtain ⟨only, rfl⟩ : handler.onlyIndices scope = true ∧
      (handler.expr.substitute (handler.capture scope)).print = code := by
    unfold HandlerSource.attach at attached
    dsimp only at attached
    split at attached
    · exact ⟨by assumption, Handler.inline.inj attached⟩
    · cases attached
  have indices := fun n hn => handler.capture_index only loops (n := n) hn
  obtain ⟨written, again⟩ := (Expr.written_of_parse parsed).legible_handler resolved fun n hn => by
    obtain ⟨i, hi, -, value⟩ := indices n hn
    exact ⟨i, hi, value⟩
  obtain ⟨handler', read, same⟩ := readHandler_print written safe again
  have indexed : ∀ n ∈ handler.expr.boundNames,
      (scope.find? n).map Var.value = (handler.capture scope).lookup n ∧
        ((handler.capture scope).lookup n).isSome = true := by
    intro n hn
    obtain ⟨i, -, held, value⟩ := indices n (by rwa [Expr.locals_of_resolveHandler resolved])
    exact ⟨held.trans value.symm, by rw [value]; rfl⟩
  -- the code is invoked like the handler with its indices put in, and that like the handler
  have alike : Alike (handler'.expr.invoke (c.context.env c.template
      (handler.expr.substitute (handler.capture scope)).print []) event)
        (handler.expr.invoke (c.context.env c.template c.template.source scope) event) := by
    have substituted := Expr.invoke_substitute
      (c.context.env c.template c.template.source []) event indexed
    have placed := Expr.invoke_alike (c.context.env c.template c.template.source [])
      (handler.expr.substitute (handler.capture scope)).print event same.symm
    exact substituted ▸ placed.symm
  obtain ⟨result, after⟩ := invokeSource_alike alike
  have inline : c.invoke (.inline (handler.expr.substitute (handler.capture scope)).print) event =
      c.invokeSource handler' (handler.expr.substitute (handler.capture scope)).print [] event := by
    simp only [invoke, read]
  unfold dispatch
  dsimp only
  rw [inline, after]
  exact ⟨result, rfl⟩

/-- An arrow function in a loop, at the third item: the index is put after the event. -/
theorem Component.dispatch_inline_arrow :
    let source := "\x7b#each xs as x\x7d<b onclick=\x7be => pick(e + index)\x7d></b>\x7b/each\x7d"
    let code := "(e) => this.pick(e + 2)"
    let pick : Method := fun args => return args.headD .null
    let context : Context :=
      { state := ⟨0, [("xs", .list 1 [.int 7, .int 8, .int 9])], [], ⟨2⟩⟩
        props := .map 3 []
        methods := [("pick", pick)]
        handlers := .withCapacity 16
        dependencies := none
        diagnostics := [] }
    let scope : Scope := LoopBinding.bind ⟨["x"], some "index", false⟩ ⟨none, .int 9, 2⟩
    let text (r : Except Error Value) : Option String := match r with
      | .ok (.text s) => some s
      | _ => none
    ∃ t handler, (Engine.new.build none source).2 = .ok t ∧
      Builder.handler { Builder.empty with loopVars := ["x", "index"] } t.functions.contains
        (.whole "e => pick(e + index)") = .ok handler ∧
      scope.FromLoops ∧ (handler.attach scope context).1 = .inline code ∧
      (handler.expr.substitute (handler.capture scope)).source.Reprintable ∧
      let c := Component.new t context
      let direct := c.invokeSource handler t.source scope (.text "item ")
      text direct.1 = some "item 2" ∧
        (c.dispatch (.inline code) (.text "item ")).1.mapError Error.placeless =
          direct.1.mapError Error.placeless ∧
        (c.dispatch (.inline code) (.text "item ")).2 = direct.2.flush.2 := by
  intro source code pick context scope text
  have facts : (Engine.new.build none source).2.toOption.bind (fun t =>
      (Builder.handler { Builder.empty with loopVars := ["x", "index"] } t.functions.contains
        (.whole "e => pick(e + index)")).toOption.map fun handler =>
          ((handler.attach scope context).1,
            decide (handler.expr.substitute (handler.capture scope)).source.Reprintable,
            text ((Component.new t context).invokeSource handler t.source scope (.text "item ")).1)) =
      some (.inline code, true, some "item 2") := by
    decide +kernel
  have loops : scope.FromLoops :=
    .loop .page ⟨["x"], some "index", false⟩ ⟨none, .int 9, 2⟩ (by decide)
  clear_value context text
  obtain ⟨t, built, facts⟩ := Option.bind_eq_some_iff.1 facts
  obtain ⟨handler, compiled, facts⟩ := Option.map_eq_some_iff.1 facts
  obtain ⟨attached, facts⟩ := Prod.mk.inj facts
  obtain ⟨safe, value⟩ := Prod.mk.inj facts
  replace built := ok_of_toOption built
  replace compiled := ok_of_toOption compiled
  replace safe := of_decide_eq_true safe
  refine ⟨t, handler, built, compiled, loops, attached, safe, ?_⟩
  have template : (Component.new t context).template = t := rfl
  generalize Component.new t context = c at value template ⊢
  subst template
  exact ⟨value, dispatch_inline compiled loops attached safe _⟩

/-- The index before a point: the digit takes the point, so the printed code cannot be read again,
where the handler itself gives a text. -/
theorem Component.dispatch_inline_point_fails :
    let source := "\x7b#each xs as x\x7d<b onclick=\x7bpick(index.toString())\x7d></b>\x7b/each\x7d"
    let pick : Method := fun args => return args.headD .null
    let context : Context :=
      { state := ⟨0, [("xs", .list 1 [.int 7])], [], ⟨2⟩⟩
        props := .map 3 []
        methods := [("pick", pick)]
        handlers := .withCapacity 16
        dependencies := none
        diagnostics := [] }
    let scope : Scope := LoopBinding.bind ⟨["x"], some "index", false⟩ ⟨none, .int 7, 0⟩
    let code := "this.pick(0.toString())"
    let text (r : Except Error Value) : Option String := match r with
      | .ok (.text s) => some s
      | _ => none
    (Engine.new.build none source).2.toOption.bind (fun t =>
      (Builder.handler { Builder.empty with loopVars := ["x", "index"] } t.functions.contains
        (.whole "pick(index.toString())")).toOption.map fun handler =>
          let c := Component.new t context
          ((handler.attach scope context).1,
            text (c.invokeSource handler t.source scope .null).1,
            (c.dispatch (.inline code) .null).1.toOption.isSome)) =
      some (.inline code, some "0", false) := by
  decide +kernel

end LiveTemplate
