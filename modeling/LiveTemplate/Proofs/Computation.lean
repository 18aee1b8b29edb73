/-
Computations that may fail, some with a state, as functions of the state.
-/
import Mathlib.Tactic

namespace LiveTemplate

variable {ε σ α β : Type}

/-- One computation after another: the second starts from the state that the first left, unless
the first failed. -/
theorem stateful_bind (m : ExceptT ε (StateM σ) α) (f : α → ExceptT ε (StateM σ) β) (s : σ) :
    (m >>= f) s = match m s with
      | (.ok a, s) => f a s
      | (.error e, s) => (.error e, s) := by
  show (ExceptT.bindCont f (m s).1) (m s).2 = _
  rcases m s with ⟨_ | _, _⟩ <;> rfl

theorem stateful_bind_ok {m : ExceptT ε (StateM σ) α} {s s' : σ} {a : α} (h : m s = (.ok a, s'))
    (f : α → ExceptT ε (StateM σ) β) : (m >>= f) s = f a s' := by
  rw [stateful_bind, h]

/-- A computation that cannot fail, after which another one goes on. -/
theorem stateful_lift_bind (m : StateM σ α) (f : α → ExceptT ε (StateM σ) β) (s : σ) :
    ((liftM m : ExceptT ε (StateM σ) α) >>= f) s = f (m s).1 (m s).2 := rfl

/-- Where one computation after another gives a result, the first gives one that the second goes on
from. -/
theorem stateful_results_of_bind {m : ExceptT ε (StateM σ) α} {f : α → ExceptT ε (StateM σ) β}
    {s s' : σ} {b : β} (h : (m >>= f) s = (.ok b, s')) :
    ∃ a s₁, m s = (.ok a, s₁) ∧ f a s₁ = (.ok b, s') := by
  rw [stateful_bind] at h
  rcases hm : m s with ⟨e | a, s₁⟩
  · rw [hm] at h
    cases h
  · rw [hm] at h
    exact ⟨a, s₁, rfl, h⟩

/-- Where one computation after another gives a result, both give one. -/
theorem results_of_bind {x : Except ε α} {f : α → Except ε β} {b : β} (h : (x >>= f) = .ok b) :
    ∃ a, x = .ok a ∧ f a = .ok b := by
  rcases x with e | a
  · cases h
  · exact ⟨a, rfl, h⟩

theorem results_of_map {x : Except ε α} {f : α → β} {b : β} (h : x.map f = .ok b) :
    ∃ a, x = .ok a ∧ f a = b := by
  rcases x with e | a
  · cases h
  · exact ⟨a, rfl, Except.ok.inj h⟩

theorem ok_of_toOption {x : Except ε α} {a : α} (h : x.toOption = some a) : x = .ok a := by
  rcases x with e | b
  · cases h
  · rw [Option.some.inj h]

/-- What holds of the result of every round holds of the results of all rounds. -/
theorem results_of_mapM {f : α → StateM σ β} {P : β → Prop} (h : ∀ a s, P (f a s).1) :
    ∀ (xs : List α) (s : σ), ∀ b ∈ (xs.mapM f s).1, P b
  | [], _, _, hb => absurd hb List.not_mem_nil
  | x :: xs, s, b, hb => by
    rw [List.mapM_cons] at hb
    rcases List.mem_cons.1 hb with rfl | hb
    · exact h x s
    · exact results_of_mapM h xs (f x s).2 b hb

end LiveTemplate
