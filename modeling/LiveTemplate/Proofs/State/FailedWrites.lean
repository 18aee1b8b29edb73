/-
Writes that fail change nothing that can be read. On its way down a write makes missing maps and
replaces nulls before it knows whether the rest of the path is good; but below a map that it made
there is nothing it could fail at, so a write that fails has made none. What it leaves is the same
state up to the identity of the collections on its path: every path leads to like values, and every
map has its keys in their order.
-/
import LiveTemplate.Proofs.Expr.TwoRuns
import LiveTemplate.Proofs.State.Changes

namespace LiveTemplate

/-- Like maps have the same keys, in the same order. -/
theorem Value.Like.keys {v w : Value} (h : v.Like w) :
    v.map?.map Entries.keys = w.map?.map Entries.keys := by
  rcases h.shape with ⟨rfl, -⟩ | ⟨_, _, _, _, rfl, rfl⟩ | ⟨_, _, xs, ys, rfl, rfl⟩
  · rfl
  · rfl
  · have keys : Entries.keys xs = Entries.keys ys := by
      have entries := Value.Like.map_iff.1 h
      clear h
      induction entries with
      | nil => rfl
      | cons same _ ih => exact congrArg₂ List.cons same.1 ih
    exact congrArg some keys

namespace State

/-- Like values have like children. -/
theorem child?_like {v w : Value} (h : v.Like w) (segment : String) :
    Option.Rel Value.Like (child? v segment) (child? w segment) := by
  rcases h.shape with ⟨rfl, -⟩ | ⟨_, _, xs, ys, rfl, rfl⟩ | ⟨_, _, _, _, rfl, rfl⟩
  · exact rel_refl_like _
  · show Option.Rel _ ((position? segment).bind (xs[·]?)) ((position? segment).bind (ys[·]?))
    cases position? segment with
    | none => exact .none
    | some i =>
      have items : List.Forall₂ Similarity.likeness.rel xs ys := Value.Like.list_iff.1 h
      exact Similarity.items_rel items i
  · exact get?_rel (Value.Like.map_iff.1 h) segment

/-- From like values, the same steps lead to like values. -/
theorem follow_like : ∀ (segments : List String) {v w : Value}, v.Like w →
    Option.Rel Value.Like (segments.foldlM child? v) (segments.foldlM child? w)
  | [], _, _, h => .some h
  | segment :: rest, v, w, h => by
    rw [List.foldlM_cons, List.foldlM_cons]
    have next := child?_like h segment
    generalize child? v segment = x at next
    generalize child? w segment = y at next
    cases next with
    | none => exact .none
    | some like => exact follow_like rest like

/-- A write that fails cannot be noticed: every path of the state leads to the same contents as
before, every map in it, however it is reached, has the same keys in the same order, and no field is
noted as changed. -/
theorem set_failed_unnoticed {path : String} {new : Value} {s s' : State} {e : Error}
    (h : set path new s = (.error e, s')) :
    (∀ q, Option.Rel Value.Like (s'.get? q) (s.get? q)) ∧
      (∀ steps : List String,
        (steps.foldlM child? s'.value).bind (fun v => v.map?.map Entries.keys) =
          (steps.foldlM child? s.value).bind fun v => v.map?.map Entries.keys) ∧
      s'.dirty = s.dirty := by
  obtain ⟨dirty, alike⟩ := set_failed (congrArg Prod.fst h)
  rw [h] at dirty alike
  refine ⟨fun q => follow_like (segments q) alike, fun steps => ?_, dirty⟩
  have reached := follow_like steps alike
  generalize steps.foldlM child? s'.value = x at reached
  generalize steps.foldlM child? s.value = y at reached
  cases reached with
  | none => rfl
  | some like => exact like.keys

/-- A write that fails below a text, at the end of a path through a list and a map. -/
theorem set_failed_unnoticed_below_text :
    let path := "todos.0.text.x"
    let s : State :=
      ⟨0, [("todos", .list 1 [.map 2 [("text", .text "a"), ("done", .bool true)]])], ["done"], ⟨3⟩⟩
    ∃ s', set path (.int 1) s = (.error (.bare (.cannotIndex path "string")), s') ∧
      s'.mark = 3 ∧
      (∀ q, Option.Rel Value.Like (s'.get? q) (s.get? q)) ∧
      (∀ steps : List String,
        (steps.foldlM child? s'.value).bind (fun v => v.map?.map Entries.keys) =
          (steps.foldlM child? s.value).bind fun v => v.map?.map Entries.keys) ∧
      s'.dirty = s.dirty := by
  intro path s
  have failed : (set path (.int 1) s).1 = .error (.bare (.cannotIndex path "string")) ∧
      (set path (.int 1) s).2.mark = 3 := by decide +kernel
  have written : set path (.int 1) s = (.error (.bare (.cannotIndex path "string")), _) :=
    Prod.ext failed.1 rfl
  exact ⟨_, written, failed.2, set_failed_unnoticed written⟩

end State

end LiveTemplate
