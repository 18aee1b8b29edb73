/-
Places in components. Whatever a source compiles to, however a component of it came about and
whatever code is dispatched to it, each error that is reported has a valid place or none. The
exception is a handler of another template that has come into the registry of the component: the
places in such a handler are counted in the other template's source.
-/
import LiveTemplate.Proofs.Component.Refresh
import LiveTemplate.Proofs.Location.Runs

namespace LiveTemplate

open Text

/-! ## Built templates -/

/-- A template that an engine builds lies in its source. -/
theorem Engine.build_placed {engine : Engine} (hf : engine.functions.Placed) {name : Option String}
    {source : String} {t : Template} (h : (engine.build name source).2 = .ok t) : t.Placed := by
  have functions : t.functions = engine.functions := by
    have direct {source : String} (h : (engine.compileSource name source).2 = .ok t) :
        t.functions = engine.functions := by
      unfold compileSource at h
      dsimp only at h
      split at h <;> cases h
      rfl
    unfold build at h
    split at h
    · split at h
      · cases h
      · exact direct h
    · exact direct h
  have located := compile_located t.functions.contains t.source
  rw [(build_ok h).1] at located
  exact ⟨located, functions ▸ hf⟩

/-! ## Operations -/

/-- Errors of a write have no place. -/
theorem State.set_reports (path : String) (v : Value) : StatefulReports (State.set path v) := by
  intro s
  rcases hp : State.segments path with _ | ⟨first, rest⟩
  · unfold State.set
    rw [hp]
    exact .error (Error.placed_bare _)
  by_cases hs : (first :: rest).any String.isEmpty = true
  · unfold State.set
    rw [hp]
    dsimp only
    rw [if_pos hs]
    exact .error (Error.placed_bare _)
  obtain ⟨mark, child, failure, supply, -, h⟩ := State.set_eq v s hp (Bool.eq_false_iff.2 hs)
  rw [h]
  cases failure with
  | none => exact .ok _
  | some cause => exact .error (Error.placed_bare _)

/-- What is taken was there, and nothing is there that was not. -/
theorem Registry.get?_of_take {α : Type} {r rest : Registry α} {token : Token} {value : α}
    (h : r.take token = (some value, rest)) :
    r.get? token = some value ∧ ∀ entry ∈ rest.entries, entry ∈ r.entries := by
  unfold take at h
  split at h
  · rename_i found hf
    cases h
    refine ⟨by rw [get?, hf]; rfl, fun entry he => ?_⟩
    split at he
    · exact he
    · exact (List.mem_filter.1 he).1
  · cases h

theorem Registry.mem_of_get? {α : Type} {r : Registry α} {token : Token} {value : α}
    (h : r.get? token = some value) : ∃ entry ∈ r.entries, entry.value = value := by
  obtain ⟨entry, found, rfl⟩ := Option.map_eq_some_iff.1 h
  exact ⟨entry, List.mem_of_find?_eq_some found, rfl⟩

/-- A template that was compiled by an engine whose functions report placed errors. -/
def Template.Built (t : Template) : Prop :=
  ∃ engine : Engine, engine.functions.Placed ∧ ∃ name source, (engine.build name source).2 = .ok t

theorem Template.Built.placed {t : Template} (h : t.Built) : t.Placed := by
  obtain ⟨engine, hf, name, source, compiled⟩ := h
  exact Engine.build_placed hf compiled

namespace Component

/-- A component of a template, whose errors are placed and whose handlers have a property. -/
structure Placed (t : Template) (P : HandlerSource → Prop) (c : Component) : Prop where
  template : c.template = t
  context : c.context.Placed P

/-- A handler is no other template's: it is code, or a token under which the registry has a handler
of the component's template or none. -/
def Owns (c : Component) : Handler → Prop
  | .inline _ => True
  | .token token => ∀ captured, c.context.handlers.get? token = some captured →
      c.template.Listens captured.source

variable {t : Template} {P : HandlerSource → Prop} {c : Component}

theorem new_placed (ht : t.Placed) (hp : t.AllListen P) {context : Context}
    (hm : context.MethodsPlaced) : (new t context).Placed t P :=
  ⟨rfl, (Template.render_placed ht hp hm).withState _⟩

theorem Placed.withState (h : c.Placed t P) (state : State) : (c.withState state).Placed t P :=
  ⟨h.template, h.context.withState state⟩

theorem Placed.update (ht : t.Placed) (hp : t.AllListen P) (h : c.Placed t P)
    (fields : List String) (nodes : List Node) :
    Placed t P
      { c with
        context := (t.update fields nodes c.context).2
        tree := (t.update fields nodes c.context).1.2 } :=
  ⟨h.template, Template.update_placed ht hp fields nodes h.context⟩

theorem Placed.flush (ht : t.Placed) (hp : t.AllListen P) (h : c.Placed t P) :
    c.flush.2.Placed t P := by
  unfold Component.flush
  dsimp only
  split
  · exact h
  · rw [h.template]
    exact ⟨rfl, Template.update_placed ht hp _ _ (h.context.withState _)⟩

theorem Placed.set (ht : t.Placed) (hp : t.AllListen P) (h : c.Placed t P) (path : String)
    (v : Value) : Reports (c.set path v).1 ∧ (c.set path v).2.Placed t P := by
  have first := State.set_reports path v c.context.state
  unfold Component.set
  generalize State.set path v c.context.state = result at first ⊢
  rcases result with ⟨e | _, state⟩
  · exact ⟨.error (first e rfl), h.withState state⟩
  · exact ⟨.ok _, (h.withState state).flush ht hp⟩

/-- The code of a handler is read with places in that code. -/
theorem readHandler_located (t : Template) (code : String) :
    Reports (readHandler t code) ∧
      ∀ handler, readHandler t code = .ok handler → handler.expr.Fits code.toList := by
  unfold readHandler
  split
  · exact ⟨.error (Error.placed_bare _), nofun⟩
  · have located := (Expr.parse_located (Region.within_whole code)).bind fun e he =>
      Expr.resolveHandler_located ⟨t.functions.contains, [], []⟩ he
    exact ⟨.ofFault located, fun handler hh => located.of_mapError hh⟩

/-- Invoking a handler that lies in a text reports errors that are placed. -/
theorem Placed.invokeSource (ht : t.Placed) (h : c.Placed t P) {handler : HandlerSource}
    {source : String} (hs : handler.expr.Fits source.toList) (scope : Scope) (event : Value) :
    Reports (c.invokeSource handler source scope event).1 := by
  obtain ⟨rfl, hc⟩ := h
  exact ((hc.env ht source scope).invoke event hs c.context.state).named _

theorem Placed.invoke (ht : t.Placed) (h : c.Placed t P) (handler : Handler) (event : Value) :
    (c.Owns handler → Reports (c.invoke handler event).1) ∧
      (c.invoke handler event).2.Placed t P := by
  obtain ⟨rfl, hc⟩ := id h
  unfold Component.invoke
  cases handler with
  | inline code =>
    obtain ⟨first, fits⟩ := readHandler_located c.template code
    dsimp only
    split
    · rename_i e he
      exact ⟨fun _ => .error (first e he), h⟩
    · rename_i handler hh
      exact ⟨fun _ => h.invokeSource ht (fits handler hh) [] event, rfl, hc.withState _⟩
  | token token =>
    dsimp only
    split
    · exact ⟨fun _ => .error (Error.placed_bare _), h⟩
    · rename_i captured handlers taken
      -- what is left is placed whoever owns the handler, but its error only if the template does
      obtain ⟨there, rest⟩ := Registry.get?_of_take taken
      have left : Placed c.template P { c with context := { c.context with handlers } } :=
        ⟨rfl, hc.withHandlers fun entry he => hc.handlers entry (rest entry he)⟩
      exact ⟨fun own => left.invokeSource ht (ht.listens (own captured there)) _ event,
        rfl, left.context.withState _⟩

theorem Placed.dispatch (ht : t.Placed) (hp : t.AllListen P) (h : c.Placed t P)
    (handler : Handler) (event : Value) :
    (c.Owns handler → Reports (c.dispatch handler event).1) ∧
      (c.dispatch handler event).2.Placed t P := by
  obtain ⟨first, left⟩ := h.invoke ht handler event
  exact ⟨first, left.flush ht hp⟩

/-- A component with handlers of its template only has no other template's. -/
theorem Placed.owns (h : c.Placed t t.Listens) : ∀ handler : Handler, c.Owns handler
  | .inline _ => trivial
  | .token _ => by
    intro captured there
    obtain ⟨entry, mem, rfl⟩ := Registry.mem_of_get? there
    rw [h.template]
    exact h.context.handlers entry mem

/-- What one operation leaves. -/
theorem Placed.run (ht : t.Placed) (hp : t.AllListen P) (h : c.Placed t P) :
    ∀ operation : Operation, (operation.run c).Placed t P
  | .set path v => (h.set ht hp path v).2
  | .flush => h.flush ht hp
  | .render => by
    show (new c.template c.context).Placed t P
    rw [h.template]
    exact new_placed ht hp h.context.methods
  | .dispatch handler event => (h.dispatch ht hp handler event).2
  | .write path v => h.withState _
  | .touch field => h.withState _

/-- What can become of a component of a template. It is rendered with any context; then come, in any
order, operations, updates of any nodes and changes to its context, in which other templates may be
rendered, too. Methods report placed errors, and the handlers that come from elsewhere have a
property. -/
inductive Reached (t : Template) (P : HandlerSource → Prop) : Component → Prop where
  | new {context : Context} (hm : context.MethodsPlaced) : Reached t P (.new t context)
  | run {c : Component} (h : Reached t P c) (operation : Operation) : Reached t P (operation.run c)
  | update {c : Component} (h : Reached t P c) (fields : List String) (nodes : List Node) :
    Reached t P
      { c with
        context := (t.update fields nodes c.context).2
        tree := (t.update fields nodes c.context).1.2 }
  | withState {c : Component} (h : Reached t P c) (state : State) : Reached t P (c.withState state)
  | takeDiagnostics {c : Component} (h : Reached t P c) :
    Reached t P { c with context := c.context.takeDiagnostics.2 }
  | addMethod {c : Component} (h : Reached t P c) (name : String) {method : Method}
    (hm : ∀ args, StatefulReports (method args)) :
    Reached t P { c with context := c.context.addMethod name method }
  | withHandlers {c : Component} (h : Reached t P c) {handlers : Registry CapturedHandler}
    (hh : ∀ entry ∈ handlers.entries, P entry.value.source) :
    Reached t P { c with context := { c.context with handlers } }
  | rendered {c : Component} (h : Reached t P c) {other : Template} (ho : other.Built)
    (hp : other.AllListen P) : Reached t P { c with context := (other.render c.context).2 }
  | updated {c : Component} (h : Reached t P c) {other : Template} (ho : other.Built)
    (hp : other.AllListen P) (fields : List String) (nodes : List Node) :
    Reached t P { c with context := (other.update fields nodes c.context).2 }

/-- Every step leaves errors placed. -/
theorem Reached.placed (ht : t.Placed) (hp : t.AllListen P) (h : c.Reached t P) :
    c.Placed t P := by
  induction h with
  | new hm => exact new_placed ht hp hm
  | run _ operation ih => exact ih.run ht hp operation
  | update _ fields nodes ih => exact ih.update ht hp fields nodes
  | withState _ state ih => exact ih.withState state
  | takeDiagnostics _ ih =>
    exact ⟨ih.template, ih.context.methods, nofun, ih.context.handlers⟩
  | addMethod _ name hm ih =>
    refine ⟨ih.template, fun n method hn args => ?_, ih.context.diagnostics, ih.context.handlers⟩
    rcases Named.get?_insert hn with rfl | old
    · exact hm args
    · exact ih.context.methods n method old args
  | withHandlers _ hh ih => exact ⟨ih.template, ih.context.withHandlers hh⟩
  | rendered _ ho hp ih =>
    exact ⟨ih.template, Template.render_placed ho.placed hp ih.context.methods⟩
  | updated _ ho hp fields nodes ih =>
    exact ⟨ih.template, Template.update_placed ho.placed hp fields nodes ih.context⟩

end Component

/-- Every place that is reported is valid. Take an engine whose functions report placed errors, as
the built-in ones do. Then compiling any source reports placed errors, too. Of a template that
compiles, all diagnostics of a component are placed, whatever became of it so far and whatever
templates were rendered in its context, and so are the errors of writes and of handlers that are
dispatched to it, be they code or tokens of its own template. All tokens are such as long as no
other template's handlers come into its registry. Updates leave the diagnostics placed also in a
context that other templates were rendered with. -/
theorem Engine.errors_placed {engine : Engine} (hf : engine.functions.Placed)
    (name : Option String) (source : String) :
    Reports (engine.build name source).2 ∧
      ∀ t, (engine.build name source).2 = .ok t →
        (∀ c : Component, c.Reached t (fun _ => True) →
          (∀ d ∈ c.context.diagnostics, d.error.Placed) ∧
            (∀ path v, Reports (c.set path v).1) ∧
            ∀ handler event, c.Owns handler → Reports (c.dispatch handler event).1) ∧
        (∀ c : Component, c.Reached t t.Listens →
          ∀ handler event, Reports (c.dispatch handler event).1) ∧
        ∀ context : Context, context.MethodsPlaced →
          (∀ d ∈ context.diagnostics, d.error.Placed) → ∀ fields nodes,
            ∀ d ∈ (t.update fields nodes context).2.diagnostics, d.error.Placed := by
  refine ⟨engine.build_reports name source, fun t h => ?_⟩
  have ht : t.Placed := build_placed hf h
  have anyone : t.AllListen fun _ => True := fun _ _ => trivial
  have itself : t.AllListen t.Listens := fun _ listens => listens
  refine ⟨fun c hc => ?_, fun c hc handler event => ?_, fun context hm hd fields nodes => ?_⟩
  · have hc := hc.placed ht anyone
    exact ⟨hc.context.diagnostics, fun path v => (hc.set ht anyone path v).1, fun handler event =>
      (hc.dispatch ht anyone handler event).1⟩
  · have hc := hc.placed ht itself
    exact (hc.dispatch ht itself handler event).1 (hc.owns handler)
  · have shared : context.Placed fun _ => True := ⟨hm, hd, fun _ _ => trivial⟩
    exact (Template.update_placed ht anyone fields nodes shared).diagnostics

/-- The error that was reported, if any. -/
def errorOf? {α : Type} : Except Error α → Option Error
  | .error e => some e
  | .ok _ => none

theorem errorOf?_eq_some {α : Type} {x : Except Error α} {e : Error} :
    errorOf? x = some e ↔ x = .error e := by
  cases x <;> simp [errorOf?]

/-- A text that reads from null, and code that calls a missing method: the places of both errors
are counted in bytes. -/
theorem Engine.errors_placed_umlauts :
    let source := "<p>ä\x7btitle.text\x7d</p>"
    let context : Context :=
      { state := ⟨0, [("title", .null)], [], ⟨2⟩⟩
        props := .map 1 []
        methods := []
        handlers := .withCapacity 16
        dependencies := none
        diagnostics := [] }
    let code := "'ö' + this.nö()"
    ∃ t, (Engine.new.build none source).2 = .ok t ∧
      (Component.new t context).context.diagnostics =
        [⟨0, "this.title.text", ⟨.propertyOfNull "text", none, some ⟨source, ⟨6, 16⟩⟩⟩⟩] ∧
      ((Component.new t context).dispatch (.inline code) .null).1 =
        .error ⟨.unknownMethod "nö", none, some ⟨code, ⟨7, 17⟩⟩⟩ ∧
      Location.Valid ⟨source, ⟨6, 16⟩⟩ ∧ Location.Valid ⟨code, ⟨7, 17⟩⟩ := by
  intro source context code
  have outcome : (Engine.new.build none source).2.toOption.map
      (fun t => ((Component.new t context).context.diagnostics,
        errorOf? ((Component.new t context).dispatch (.inline code) .null).1)) =
      some ([⟨0, "this.title.text", ⟨.propertyOfNull "text", none, some ⟨source, ⟨6, 16⟩⟩⟩⟩],
        some ⟨.unknownMethod "nö", none, some ⟨code, ⟨7, 17⟩⟩⟩) := by decide +kernel
  have bare : context.MethodsPlaced := nofun
  clear_value source context code
  obtain ⟨t, compiled, reported⟩ := Option.map_eq_some_iff.1 outcome
  have compiled := ok_of_toOption compiled
  obtain ⟨shown, failed⟩ := Prod.mk.inj reported
  have failed := errorOf?_eq_some.1 failed
  obtain ⟨diagnostics, -, dispatched⟩ :=
    ((Engine.errors_placed builtins_placed none source).2 t compiled).1 _ (.new bare)
  rw [shown] at diagnostics
  exact ⟨t, compiled, shown, failed, List.forall_mem_singleton.1 diagnostics _ rfl,
    dispatched (.inline code) _ trivial _ failed _ rfl⟩

/-- Another template is rendered in the context of a component, and its handler is dispatched to the
component. The error carries the source of the component and a span that is counted in the other
source, beyond the end of what it carries. -/
theorem Engine.error_misplaced_of_other_template :
    let source := "<p></p>"
    let otherSource := "\x7b#each xs as x\x7d<b onclick=\x7bx.y.z.w\x7d></b>\x7b/each\x7d"
    let context : Context :=
      { state := ⟨0, [("xs", .list 1 [.map 2 []])], [], ⟨3⟩⟩
        props := .map 4 []
        methods := []
        handlers := .withCapacity 16
        dependencies := none
        diagnostics := [] }
    ∃ t other, (Engine.new.build none source).2 = .ok t ∧
      (Engine.new.build none otherSource).2 = .ok other ∧
      let alone := Component.new t context
      let shared : Component := { alone with context := (other.render alone.context).2 }
      shared.Reached t (fun _ => True) ∧
      (shared.dispatch (.token 1) .null).1 =
        .error ⟨.propertyOfNull "z", none, some ⟨source, ⟨27, 32⟩⟩⟩ ∧
      ¬ Location.Valid ⟨source, ⟨27, 32⟩⟩ := by
  intro source otherSource context
  have outcome : (do
      let t ← (Engine.new.build none source).2.toOption
      let other ← (Engine.new.build none otherSource).2.toOption
      let alone := Component.new t context
      let shared : Component := { alone with context := (other.render alone.context).2 }
      errorOf? (shared.dispatch (.token 1) .null).1) =
      some ⟨.propertyOfNull "z", none, some ⟨source, ⟨27, 32⟩⟩⟩ := by
    decide +kernel
  have bare : context.MethodsPlaced := nofun
  have beyond : ¬ Location.Valid ⟨source, ⟨27, 32⟩⟩ := fun valid => absurd valid.inside (by decide)
  clear_value source otherSource context
  simp only [Option.bind_eq_bind, Option.bind_eq_some_iff] at outcome
  obtain ⟨t, compiled, other, otherCompiled, dispatched⟩ := outcome
  have compiled := ok_of_toOption compiled
  have otherCompiled := ok_of_toOption otherCompiled
  have built : other.Built := ⟨.new, builtins_placed, none, otherSource, otherCompiled⟩
  exact ⟨t, other, compiled, otherCompiled, .rendered (.new bare) built fun _ _ => trivial,
    errorOf?_eq_some.1 dispatched, beyond⟩

end LiveTemplate
