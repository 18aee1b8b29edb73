/-
The life of tokens. What is done to a registry is told by events, and doing them again on a
registry without values shows which of them made entries give way. Where tokens stand somewhere
and some of them are exchanged for new ones, the registry goes along: it never holds a token that
was exchanged, and if no entry gave way it holds all that stand there now.
-/
import LiveTemplate.Registry
import Mathlib.Tactic

namespace LiveTemplate.Registry

variable {α : Type}

/-! ## Events -/

/-- What is done to a registry. -/
inductive Event where
  | clear
  | resize (capacity : Nat)
  | issue
  | release (token : Token)
deriving Repr, DecidableEq

/-- The tokens with an entry, oldest first. -/
def live (r : Registry α) : List Token := r.entries.map Entry.token

/-- A registry without its values. -/
def bare (r : Registry α) : Registry Unit :=
  { r with entries := r.entries.map fun e => ⟨e.token, (), e.persistent⟩ }

def perform (r : Registry Unit) : Event → Registry Unit
  | .clear => r.clear
  | .resize capacity => r.setCapacity capacity
  | .issue => (r.registerPersistent ()).2
  | .release token => (r.release token).2

/-- The registry after events, one after the other. -/
def replay (r : Registry Unit) (events : List Event) : Registry Unit := events.foldl perform r

/-- The entries are too many after an event, so that the oldest of them give way. -/
def Evicts (r : Registry Unit) : Event → Prop
  | .resize capacity => max capacity 1 < r.size
  | .issue => r.capacity < r.size + 1
  | .clear | .release _ => False

instance (r : Registry Unit) : ∀ event, Decidable (r.Evicts event)
  | .resize capacity => inferInstanceAs (Decidable (max capacity 1 < r.size))
  | .issue => inferInstanceAs (Decidable (r.capacity < r.size + 1))
  | .clear | .release _ => inferInstanceAs (Decidable False)

/-- No entry ever gives way while events happen. -/
def Unevicted (r : Registry Unit) : List Event → Prop
  | [] => True
  | event :: rest => ¬ r.Evicts event ∧ (r.perform event).Unevicted rest

instance decidableUnevicted : ∀ (events : List Event) (r : Registry Unit),
    Decidable (r.Unevicted events)
  | [], _ => inferInstanceAs (Decidable True)
  | event :: rest, r =>
    have := decidableUnevicted rest (r.perform event)
    inferInstanceAs (Decidable (¬ r.Evicts event ∧ (r.perform event).Unevicted rest))

theorem replay_append (r : Registry Unit) (a b : List Event) :
    r.replay (a ++ b) = (r.replay a).replay b := List.foldl_append ..

theorem unevicted_append : ∀ (a : List Event) (r : Registry Unit) (b : List Event),
    r.Unevicted (a ++ b) ↔ r.Unevicted a ∧ (r.replay a).Unevicted b
  | [], r, b => by simp [Unevicted, replay]
  | event :: a, r, b => by
    rw [List.cons_append, Unevicted, Unevicted, unevicted_append a, and_assoc]
    rfl

/-! ## Registries without values -/

@[simp]
theorem live_bare (r : Registry α) : r.bare.live = r.live := by simp [bare, live]

@[simp]
theorem next_bare (r : Registry α) : r.bare.next = r.next := rfl

theorem bare_evict (r : Registry α) : r.evict.bare = r.bare.evict := by
  simp [bare, evict, List.map_drop]

theorem bare_insert (r : Registry α) (value : α) (persistent : Bool) :
    (r.insert value persistent).2.bare = (r.bare.insert () persistent).2 := by
  simp only [insert, bare_evict]
  simp [bare]

theorem bare_release (r : Registry α) (token : Token) :
    (r.release token).2.bare = (r.bare.release token).2 := by
  simp [release, bare, List.filter_map, Function.comp_def]

theorem bare_setCapacity (r : Registry α) (capacity : Nat) :
    (r.setCapacity capacity).bare = r.bare.setCapacity capacity := by
  simp only [setCapacity, bare_evict]
  rfl

theorem find?_eq_none {r : Registry α} {token : Token} :
    r.find? token = none ↔ token ∉ r.live := by
  simp only [find?, live, List.find?_eq_none, List.mem_map, beq_iff_eq, not_exists, not_and]

/-! ## Releasing -/

theorem replay_release : ∀ (tokens : List Token) (r : Registry Unit),
    (r.replay (tokens.map .release)).next = r.next ∧
      ∀ token, token ∈ (r.replay (tokens.map .release)).live ↔ token ∈ r.live ∧ token ∉ tokens
  | [], r => by simp [replay]
  | first :: rest, r => by
    obtain ⟨hn, hl⟩ := replay_release rest (r.perform (.release first))
    have released : ∀ token, token ∈ (r.perform (.release first)).live ↔
        token ∈ r.live ∧ token ≠ first := by
      intro token
      simp only [perform, release, live, List.mem_map, List.mem_filter, bne_iff_ne, ne_eq]
      constructor
      · rintro ⟨e, ⟨he, hne⟩, rfl⟩
        exact ⟨⟨e, he, rfl⟩, hne⟩
      · rintro ⟨⟨e, he, rfl⟩, hne⟩
        exact ⟨e, ⟨he, hne⟩, rfl⟩
    refine ⟨hn, fun token => ?_⟩
    rw [List.map_cons, show r.replay (.release first :: rest.map .release) =
      (r.perform (.release first)).replay (rest.map .release) from rfl, hl, released]
    simp only [List.mem_cons, not_or, and_assoc]

/-! ## Issuing -/

theorem live_issue (r : Registry Unit) :
    (r.perform .issue).live = (r.live ++ [r.next]).drop (r.size + 1 - r.capacity) := by
  simp [perform, registerPersistent, insert, evict, live, size, List.map_drop]

theorem replay_issue : ∀ (k : Nat) (r : Registry Unit),
    (r.replay (List.replicate k .issue)).next = r.next + k ∧
      (∀ token ∈ (r.replay (List.replicate k .issue)).live,
        token ∈ r.live ∨ token ∈ List.range' r.next k) ∧
      (r.Unevicted (List.replicate k .issue) → ∀ token,
        token ∈ r.live ∨ token ∈ List.range' r.next k →
          token ∈ (r.replay (List.replicate k .issue)).live)
  | 0, r => by simp [replay]
  | k + 1, r => by
    obtain ⟨hn, hl, hk⟩ := replay_issue k (r.perform .issue)
    have next : (r.perform .issue).next = r.next + 1 := rfl
    rw [next] at hn hl hk
    rw [List.replicate_succ, show r.replay (.issue :: List.replicate k .issue) =
      (r.perform .issue).replay (List.replicate k .issue) from rfl, List.range'_succ]
    refine ⟨hn.trans (Nat.add_right_comm ..), fun token ht => ?_, fun ⟨room, hu⟩ token ht => ?_⟩
    · rcases hl token ht with ht | ht
      · rw [live_issue] at ht
        have := List.mem_of_mem_drop ht
        simp only [List.mem_append, List.mem_singleton] at this
        rcases this with h | rfl
        · exact .inl h
        · exact .inr List.mem_cons_self
      · exact .inr (List.mem_cons_of_mem _ ht)
    · refine hk hu token ?_
      have all : (r.perform .issue).live = r.live ++ [r.next] := by
        have fits : r.size + 1 - r.capacity = 0 := by
          simp only [Evicts] at room
          omega
        rw [live_issue, fits, List.drop_zero]
      rw [all, List.mem_append, List.mem_singleton]
      rcases ht with ht | ht
      · exact .inl (.inl ht)
      · rcases List.mem_cons.1 ht with rfl | ht
        · exact .inl (.inr rfl)
        · exact .inr ht

/-! ## Exchanging tokens -/

/-- Where the old tokens stood, the new ones stand after the events: some of the old ones and some
that were issued meanwhile. Tokens that stand elsewhere are not concerned. -/
structure Exchanges (r : Registry Unit) (events : List Event) (old new : List Token) : Prop where
  next_le : r.next ≤ (r.replay events).next
  mem_new : ∀ token ∈ new, token ∈ old ∨ r.next ≤ token ∧ token < (r.replay events).next
  nodup : old.Nodup → (∀ token ∈ old, token < r.next) → new.Nodup
  live : ∀ token ∈ (r.replay events).live, token ∈ new ∨ token ∈ r.live ∧ token ∉ old
  kept : r.Unevicted events → ∀ token ∈ r.live, token ∉ old → token ∈ (r.replay events).live
  held : r.Unevicted events → (∀ token ∈ old, token ∈ r.live) →
    ∀ token ∈ new, token ∈ (r.replay events).live

namespace Exchanges

theorem refl (r : Registry Unit) (tokens : List Token) : r.Exchanges [] tokens tokens where
  next_le := Nat.le_refl _
  mem_new := fun _ => .inl
  nodup := fun h _ => h
  live := fun token ht => (em (token ∈ tokens)).imp_right fun hn => ⟨ht, hn⟩
  kept := fun _ _ ht _ => ht
  held := fun _ h => h

/-- All tokens are released and new ones issued in their place. -/
theorem renew (r : Registry Unit) (old : List Token) (k : Nat) :
    r.Exchanges (old.map .release ++ List.replicate k .issue) old (List.range' r.next k) := by
  obtain ⟨hn, hl⟩ := replay_release old r
  obtain ⟨hn', hl', hk'⟩ := replay_issue k (r.replay (old.map .release))
  rw [hn] at hn' hl' hk'
  have quiet (hu : r.Unevicted (old.map .release ++ List.replicate k .issue)) :=
    hk' ((unevicted_append _ _ _).1 hu).2
  have after : r.replay (old.map .release ++ List.replicate k .issue) =
      (r.replay (old.map .release)).replay (List.replicate k .issue) := replay_append ..
  constructor
  · rw [after, hn']
    exact Nat.le_add_right ..
  · intro token ht
    rw [after, hn']
    exact .inr (List.mem_range'_1.1 ht)
  · exact fun _ _ => List.nodup_range'
  · rw [after]
    exact fun token ht => (hl' token ht).symm.imp_right (hl token).1
  · rw [after]
    exact fun hu token ht hn => quiet hu token (.inl ((hl token).2 ⟨ht, hn⟩))
  · rw [after]
    exact fun hu _ token ht => quiet hu token (.inr ht)

/-- Exchanges in two places, one after the other, where no token stands in both. -/
theorem append {r : Registry Unit} {events events' : List Event} {a b a' b' : List Token}
    (first : r.Exchanges events a a') (second : (r.replay events).Exchanges events' b b')
    (hd : a.Disjoint b) (hb : ∀ token ∈ b, token < r.next) :
    r.Exchanges (events ++ events') (a ++ b) (a' ++ b') := by
  -- a token that stands in the first place now is not among those of the second
  have apart : ∀ token ∈ a', token ∉ b := by
    intro token ht hm
    rcases first.mem_new token ht with h | ⟨h, -⟩
    · exact hd h hm
    · exact absurd (hb token hm) (Nat.not_lt.2 h)
  have le := first.next_le
  have le' := second.next_le
  constructor <;> simp only [replay_append, unevicted_append, List.mem_append, not_or]
  · exact le.trans le'
  · rintro token (ht | ht)
    · rcases first.mem_new token ht with h | ⟨h, h'⟩
      · exact .inl (.inl h)
      · exact .inr ⟨h, h'.trans_le le'⟩
    · rcases second.mem_new token ht with h | ⟨h, h'⟩
      · exact .inl (.inr h)
      · exact .inr ⟨le.trans h, h'⟩
  · intro hn hlt
    obtain ⟨ha, hb', -⟩ := List.nodup_append.1 hn
    refine List.nodup_append.2 ⟨first.nodup ha fun t h => hlt t (.inl h),
      second.nodup hb' fun t h => (hb t h).trans_le le, ?_⟩
    rintro token h₁ _ h₂ rfl
    rcases second.mem_new token h₂ with h | ⟨h, -⟩
    · exact apart token h₁ h
    · rcases first.mem_new token h₁ with h' | ⟨-, h'⟩
      · exact absurd (hlt token (.inl h')) (Nat.not_lt.2 (le.trans h))
      · exact absurd h' (Nat.not_lt.2 h)
  · intro token ht
    rcases second.live token ht with h | ⟨h, hnb⟩
    · exact .inl (.inr h)
    · rcases first.live token h with h | ⟨h, hna⟩
      · exact .inl (.inl h)
      · exact .inr ⟨h, hna, hnb⟩
  · rintro ⟨hu, hu'⟩ token ht ⟨hna, hnb⟩
    exact second.kept hu' token (first.kept hu token ht hna) hnb
  · rintro ⟨hu, hu'⟩ hold token (ht | ht)
    · have h := first.held hu (fun t h => hold t (.inl h)) token ht
      exact second.kept hu' token h (apart token ht)
    · refine second.held hu' (fun t h => ?_) token ht
      exact first.kept hu t (hold t (.inr h)) fun ha => hd ha h

end Exchanges

end LiveTemplate.Registry
