/-
Places through all runs. The diagnostics of a context are placed, and its handlers are those of the
template; every instruction, render and update leaves it so.
-/
import LiveTemplate.Render.Update
import LiveTemplate.Proofs.Location.Reports

namespace LiveTemplate

open Text

/-! ## Templates and contexts -/

/-- The expressions of a template lie in its source, and its functions report placed errors. -/
structure Template.Placed (t : Template) : Prop where
  instrs : ∀ instr ∈ t.program.instrs.toList, instr.Fits t.source.toList
  functions : t.functions.Placed

/-- A template attaches a handler to its elements. -/
def Template.Listens (t : Template) (handler : HandlerSource) : Prop :=
  ∃ event, .addListener event handler ∈ t.program.instrs.toList

theorem Template.Placed.listens {t : Template} (h : t.Placed) {handler : HandlerSource}
    (hl : t.Listens handler) : handler.expr.Fits t.source.toList := by
  obtain ⟨event, hi⟩ := hl
  exact h.instrs _ hi

/-- All handlers that a template attaches have a property. -/
def Template.AllListen (t : Template) (P : HandlerSource → Prop) : Prop :=
  ∀ ⦃handler⦄, t.Listens handler → P handler

/-- The methods of a context report placed errors. -/
def Context.MethodsPlaced (c : Context) : Prop :=
  ∀ name method, c.methods.get? name = some method → ∀ args, StatefulReports (method args)

/-- The errors of a context are placed, and its handlers have a property. -/
structure Context.Placed (P : HandlerSource → Prop) (c : Context) : Prop where
  methods : c.MethodsPlaced
  diagnostics : ∀ d ∈ c.diagnostics, d.error.Placed
  handlers : ∀ entry ∈ c.handlers.entries, P entry.value.source

variable {t : Template} {P : HandlerSource → Prop} {c : Context}

theorem Context.Placed.withState (h : c.Placed P) (state : State) :
    Context.Placed P { c with state } :=
  ⟨h.methods, h.diagnostics, h.handlers⟩

theorem Context.Placed.withHandlers (h : c.Placed P) {handlers : Registry CapturedHandler}
    (hh : ∀ entry ∈ handlers.entries, P entry.value.source) :
    Context.Placed P { c with handlers } :=
  ⟨h.methods, h.diagnostics, hh⟩

theorem Context.Placed.env (h : c.Placed P) (ht : t.Placed) (source : String) (scope : Scope) :
    (c.env t source scope).Placed :=
  ⟨h.methods, ht.functions⟩

/-! ## Attempts -/

/-- An attempt in a placed context reports placed errors and leaves the context placed. -/
def Attempt.Placed (P : HandlerSource → Prop) {α : Type} (m : Attempt α) : Prop :=
  ∀ c : Context, c.Placed P → Reports (m c).1 ∧ (m c).2.Placed P

namespace Attempt.Placed

variable {α β : Type}

theorem pure (a : α) : Attempt.Placed P (Pure.pure a : Attempt α) := fun _ h => ⟨.ok a, h⟩

theorem throw {e : Error} (he : e.Placed) : Attempt.Placed P (throwThe Error e : Attempt α) :=
  fun _ h => ⟨.error he, h⟩

theorem bind {m : Attempt α} {f : α → Attempt β} (hm : Attempt.Placed P m)
    (hf : ∀ a, Attempt.Placed P (f a)) : Attempt.Placed P (m >>= f) := by
  intro c h
  obtain ⟨first, left⟩ := hm c h
  rw [stateful_bind]
  generalize m c = result at first left ⊢
  rcases result with ⟨e | a, c'⟩
  · exact ⟨.error (first e rfl), left⟩
  · exact hf a c' left

theorem eval (ht : t.Placed) (scope : Scope) {e : Expr} (he : e.Fits t.source.toList) :
    Attempt.Placed P (Attempt.eval t scope e) :=
  fun c h => ⟨(h.env ht t.source scope).eval he c.state, h.withState _⟩

theorem collect (ht : t.Placed) (scope : Scope) {e : Expr} (he : e.Fits t.source.toList) :
    Attempt.Placed P (t.collect scope e) := by
  refine (eval ht scope he).bind fun v => ?_
  split
  · exact .pure _
  · exact .throw (Error.placed_located he.span _)

theorem present (ht : t.Placed) (scope : Scope) {e : Expr} (he : e.Fits t.source.toList)
    (mode : EmitMode) : Attempt.Placed P (t.present scope e mode) := by
  refine (eval ht scope he).bind fun v => ?_
  split
  · exact .pure _
  · exact .pure _
  · exact .pure _
  · exact .throw (Error.placed_located he.span _)

end Attempt.Placed

/-! ## Instructions -/

/-- A computation that leaves a placed context placed. -/
def Keeps (P : HandlerSource → Prop) {α : Type} (m : StateM Context α) : Prop :=
  ∀ c : Context, c.Placed P → (m c).2.Placed P

/-- What fails becomes a diagnostic. -/
theorem Attempt.Placed.recover {α : Type} {m : Attempt α} (hm : Attempt.Placed P m)
    (action : ActionId) (e : Expr) (standIn : α) :
    Keeps P (Attempt.recover t action e standIn m) := by
  intro c h
  obtain ⟨first, left⟩ := hm c h
  unfold Attempt.recover
  generalize m c = result at first left ⊢
  rcases result with ⟨err | a, c'⟩
  · refine ⟨left.methods, List.forall_mem_append.2 ⟨left.diagnostics, ?_⟩, left.handlers⟩
    exact List.forall_mem_singleton.2 ((first err rfl).named t.name)
  · exact left

theorem HandlerSource.attach_keeps {handler : HandlerSource} (hp : P handler) (scope : Scope) :
    Keeps P (handler.attach scope) := by
  intro c h
  unfold HandlerSource.attach
  dsimp only
  split
  · exact h
  · refine h.withHandlers fun entry he => ?_
    -- the oldest entries may have given way
    rcases List.mem_append.1 (List.mem_of_mem_drop he) with old | new
    · exact h.handlers entry old
    · rw [List.mem_singleton.1 new]
      exact hp

/-- Running instructions in a placed context leaves it placed. -/
def Run.Placed (P : HandlerSource → Prop) {α : Type} (m : Run α) : Prop :=
  @Keeps P (Except Stuck α) m

namespace Run.Placed

variable {α β : Type}

theorem pure (a : α) : Run.Placed P (Pure.pure a : Run α) := fun _ h => h

theorem throw (stuck : Stuck) : Run.Placed P (throwThe Stuck stuck : Run α) := fun _ h => h

theorem need (o : Option α) (stuck : Stuck) : Run.Placed P (Run.need o stuck) := by
  cases o with
  | none => exact throw stuck
  | some a => exact pure a

theorem bind {m : Run α} {f : α → Run β} (hm : Run.Placed P m) (hf : ∀ a, Run.Placed P (f a)) :
    Run.Placed P (m >>= f) := by
  intro c h
  have left := hm c h
  rw [stateful_bind]
  generalize m c = result at left ⊢
  rcases result with ⟨stuck | a, c'⟩
  · exact left
  · exact hf a c' left

theorem need_bind {o : Option α} {stuck : Stuck} {f : α → Run β}
    (hf : ∀ a, o = some a → Run.Placed P (f a)) : Run.Placed P (Run.need o stuck >>= f) := by
  cases o with
  | none => exact throw stuck
  | some a => exact hf a rfl

/-- A computation that cannot get stuck. -/
theorem lift {m : StateM Context α} {f : α → Run β} (hm : Keeps P m)
    (hf : ∀ a, Run.Placed P (f a)) : Run.Placed P (liftM m >>= f) :=
  fun c h => hf _ _ (hm c h)

theorem foldlM {f : β → α → Run β} (hf : ∀ b a, Run.Placed P (f b a)) : ∀ (xs : List α) (b : β),
    Run.Placed P (xs.foldlM f b)
  | [], b => pure b
  | x :: xs, b => by
    rw [List.foldlM_cons]
    exact (hf b x).bind fun b => foldlM hf xs b

end Run.Placed

namespace Template

theorem attributeValue_keeps (ht : t.Placed) (scope : Scope) {e : Expr}
    (he : e.Fits t.source.toList) (action : ActionId) :
    Keeps P (t.attributeValue scope e action) :=
  ((Attempt.Placed.eval ht scope he).bind fun _ => .pure _).recover action e none

theorem step_placed (ht : t.Placed) (hp : t.AllListen P) (scope : Scope) (pc : Nat) {instr : Instr}
    (hi : instr ∈ t.program.instrs.toList) (out : Output) :
    Run.Placed P (t.step scope pc instr out) := by
  have fits := ht.instrs instr hi
  cases instr with
  | createElement | createText => exact .pure _
  | setAttribute | setFlag | appendChild => exact .need _ _
  | setAttributeExpr name e action =>
    exact .lift (attributeValue_keeps ht scope fits action) fun _ => .need _ _
  | addListener event handler =>
    exact .lift (HandlerSource.attach_keeps (hp ⟨event, hi⟩) scope) fun _ => .need _ _
  | _ => exact .throw _

theorem test_keeps (ht : t.Placed) (scope : Scope) {e : Expr} (he : e.Fits t.source.toList)
    (negate : Bool) (action : ActionId) : Keeps P (t.test scope e negate action) :=
  ((Attempt.Placed.eval ht scope he).bind fun _ => .pure _).recover action e none

theorem emitted_keeps (ht : t.Placed) (scope : Scope) {e : Expr} (he : e.Fits t.source.toList)
    (mode : EmitMode) (action : ActionId) : Keeps P (t.emitted scope e mode action) :=
  ((Attempt.Placed.present ht scope he mode).bind fun _ => .pure _).recover action e []

theorem items_keeps (ht : t.Placed) (scope : Scope) {e : Expr} (he : e.Fits t.source.toList)
    (action : ActionId) : Keeps P (t.items scope e action) :=
  (Attempt.Placed.collect ht scope he).recover action e []

/-- Running instructions leaves a placed context placed. -/
theorem run_placed (ht : t.Placed) (hp : t.AllListen P) : ∀ fuel : Nat,
    (∀ frame scope stop pc out, Run.Placed P (t.run fuel frame scope stop pc out)) ∧
      ∀ pc scope, Run.Placed P (t.runBlock fuel pc scope)
  | 0 => by
    refine ⟨fun frame scope stop pc out => ?_, fun pc scope => .throw _⟩
    rw [run, runIn]
    split
    · exact .throw _
    · exact .pure _
  | fuel + 1 => by
    -- `run` enters blocks and `runBlock` runs bodies, so the induction is on the fuel of both.
    obtain ⟨hrun, hblock⟩ := run_placed ht hp fuel
    have mem {pc : Nat} {instr : Instr} (h : t.program.instrs[pc]? = some instr) :
        instr ∈ t.program.instrs.toList :=
      Array.mem_toList_iff.2 (Array.mem_of_getElem? h)
    constructor
    · intro frame scope stop pc out
      have block : Run.Placed P (t.runBlock fuel pc scope >>= fun found =>
          t.run fuel frame scope stop (found.1.stop + 1) (out.push (.block found.1 found.2))) :=
        (hblock pc scope).bind fun _ => hrun _ _ _ _ _
      rw [run, runIn]
      split
      · refine .need_bind fun instr hi => ?_
        cases instr with
        | emit | openConditional | openLoop => exact block
        | branch e negate target =>
          cases frame with
          | conditional action =>
            refine .lift (test_keeps ht scope (ht.instrs _ (mem hi)) negate action) fun found => ?_
            split
            · exact hrun _ _ _ _ _
            · exact hrun _ _ _ _ _
            · exact .pure _
          | page | loop => exact .throw _
        | jump target =>
          show Run.Placed P (if frame = .loop target then _ else _)
          split
          · exact .pure _
          · exact hrun _ _ _ _ _
        | _ => exact (step_placed ht hp scope pc (mem hi) out).bind fun _ => hrun _ _ _ _ _
      · exact .pure _
    · intro pc scope
      rw [runBlock, runBlockIn]
      split
      · rename_i hi
        exact .lift (emitted_keeps ht scope (ht.instrs _ (mem hi)) _ _) fun _ => .pure _
      · exact (hrun _ _ _ _ _).bind fun _ => .pure _
      · rename_i hi
        refine .lift (items_keeps ht scope (ht.instrs _ (mem hi)) _) fun items => ?_
        split
        · split
          · exact (Run.Placed.foldlM (fun _ _ => hrun _ _ _ _ _) items _).bind fun _ => .pure _
          · exact .throw _
        · exact .throw _
      · exact .throw _

theorem runAll_placed (ht : t.Placed) (hp : t.AllListen P) : Run.Placed P t.runAll :=
  ((run_placed ht hp t.fuel).1 _ _ _ _ _).bind fun _ => .pure _

/-! ## Renders and updates -/

/-- Rendering starts without handlers and diagnostics. -/
theorem render_placed (ht : t.Placed) (hp : t.AllListen P)
    (hm : c.MethodsPlaced) : (t.render c).2.Placed P := by
  have prepared : (t.prepare c).Placed P := by
    refine ⟨hm, by simp [prepare], fun entry he => ?_⟩
    simp [prepare, Registry.clear, Registry.setCapacity, Registry.evict] at he
  have left := runAll_placed ht hp _ prepared
  unfold render
  generalize t.runAll (t.prepare c) = result at left ⊢
  rcases result with ⟨stuck | nodes, c'⟩ <;> exact left

/-- Letting go of handlers adds none. -/
theorem releaseAll_placed (nodes : List Node) : Keeps P (releaseAll nodes) := by
  intro c h
  refine h.withHandlers ?_
  generalize c.handlers = handlers, h.handlers = held
  induction tokensOf nodes generalizing handlers with
  | nil => exact held
  | cons token rest ih => exact ih _ fun entry he => held entry (List.mem_filter.1 he).1

theorem updateAttributes_placed (ht : t.Placed) (actions : List ActionId) :
    ∀ (bindings : List AttributeBinding) (e : Element),
      Run.Placed P (t.updateAttributes actions bindings e)
  | [], e => .pure _
  | b :: rest, e => by
    rw [updateAttributes, updateAttributesIn]
    split
    · split
      · rename_i hi
        have fits := ht.instrs _ (Array.mem_toList_iff.2 (Array.mem_of_getElem? hi))
        exact .lift (attributeValue_keeps ht b.scope fits _) fun value =>
          (updateAttributes_placed ht actions rest _).bind fun _ => .pure _
      · exact .throw _
    · exact updateAttributes_placed ht actions rest e

mutual

theorem updateNode_placed (ht : t.Placed) (hp : t.AllListen P) (actions : List ActionId) :
    ∀ n : Node, Run.Placed P (t.updateNode actions n)
  | .text s | .html s => by
    rw [updateNode, updateNodeIn]
    exact .pure _
  | .block anchor children => by
    rw [updateNode, updateNodeIn]
    split
    · exact .lift (releaseAll_placed children) fun _ =>
        ((run_placed ht hp t.fuel).2 _ _).bind fun _ => .pure _
    · exact (updateNodes_placed ht hp actions children).bind fun _ => .pure _
  | .element e children => by
    rw [updateNode, updateNodeIn]
    exact (updateAttributes_placed ht actions e.bindings e).bind fun _ =>
      (updateNodes_placed ht hp actions children).bind fun _ => .pure _

theorem updateNodes_placed (ht : t.Placed) (hp : t.AllListen P) (actions : List ActionId) :
    ∀ nodes : List Node, Run.Placed P (t.updateNodes actions nodes)
  | [] => by
    rw [updateNodes, updateNodesIn]
    exact .pure _
  | n :: rest => by
    rw [updateNodes, updateNodesIn]
    exact (updateNode_placed ht hp actions n).bind fun _ =>
      (updateNodes_placed ht hp actions rest).bind fun _ => .pure _

end

theorem update_placed (ht : t.Placed) (hp : t.AllListen P) (fields : List String)
    (nodes : List Node) (h : c.Placed P) : (t.update fields nodes c).2.Placed P := by
  unfold update
  dsimp only
  split
  · exact h
  · have left := updateNodes_placed ht hp (t.dependencies.actionsFor fields) nodes c h
    generalize t.updateNodes (t.dependencies.actionsFor fields) nodes c = result at left ⊢
    rcases result with ⟨stuck | found, c'⟩ <;> exact left

end Template

end LiveTemplate
