/-
What writes do to the state. Whatever was written, the fields that are not noted as changed hold
like values before and after; a write that fails leaves all values alike, though it may have marked
collections afresh. Computations that access the state by its paths only change it in this way.
-/
import LiveTemplate.Proofs.Expr.Effects
import LiveTemplate.Proofs.Expr.Reads

namespace LiveTemplate

/-! ## Entries -/

namespace Entries

theorem get?_cons (k : String) (v : Value) (rest : Entries) (key : String) :
    get? ((k, v) :: rest) key = if key = k then some v else get? rest key :=
  lookup_cons_if k v rest

theorem get?_insert (key : String) (v : Value) (k : String) : ∀ entries : Entries,
    (Entries.insert key v entries).get? k = if k = key then some v else entries.get? k := by
  intro entries
  induction entries with
  | nil => exact get?_cons key v [] k
  | cons e rest ih =>
    obtain ⟨k', v'⟩ := e
    unfold Entries.insert
    split
    · rename_i h
      subst h
      rw [get?_cons, get?_cons]
      split <;> rfl
    · rename_i h
      rw [get?_cons, ih, get?_cons]
      by_cases hk : k = k'
      · subst hk
        rw [if_pos rfl, if_neg h, if_pos rfl]
      · rw [if_neg hk, if_neg hk]

/-- Putting a like value in the place of another one. -/
theorem insert_like {key : String} {v w : Value} (hv : v.Like w) : ∀ {entries : Entries},
    entries.get? key = some w →
      List.Forall₂ (EntryRel Value.Like) (Entries.insert key v entries) entries
  | [], h => nomatch h
  | (k, u) :: rest, h => by
    have same (entries : Entries) : List.Forall₂ (EntryRel Value.Like) entries entries :=
      List.forall₂_same.2 fun _ _ => ⟨rfl, .refl _⟩
    rw [get?_cons] at h
    unfold Entries.insert
    by_cases hk : k = key
    · rw [if_pos hk.symm] at h
      cases h
      rw [if_pos hk]
      exact .cons ⟨hk.symm, hv⟩ (same rest)
    · rw [if_neg (Ne.symm hk)] at h
      rw [if_neg hk]
      exact .cons ⟨rfl, .refl _⟩ (insert_like hv h)

end Entries

theorem set_like {v w : Value} (hv : v.Like w) : ∀ {items : List Value} {i : Nat},
    items[i]? = some w → List.Forall₂ Value.Like (items.set i v) items
  | [], _, h => nomatch h
  | u :: rest, 0, h => by
    cases h
    exact .cons hv (List.forall₂_same.2 fun _ _ => .refl _)
  | u :: rest, i + 1, h => .cons (.refl u) (set_like hv h)

namespace State

/-! ## Writes that fail -/

variable (path : String) (new : Value)

theorem write_map (segment : String) (rest : List String) (m : Mark) (entries : Entries)
    (n : Supply) :
    write path new (segment :: rest) (.map m entries) n =
      let (child, n') := descend (entries.get? segment) rest ⟨n.next + 1⟩
      let ((child, failure), n') := write path new rest child n'
      ((.map n.next (Entries.insert segment child entries), failure), n') := rfl

/-- A path that leads through a new map can always be written. -/
theorem write_newMap : ∀ (segments : List String) (m : Mark) (n : Supply),
    (write path new segments (.map m []) n).1.2 = none
  | [], _, _ => rfl
  | segment :: rest, m, n => by
    rw [write_map]
    cases rest with
    | nil => rfl
    | cons next rest => exact write_newMap (next :: rest) (n.next + 1) ⟨n.next + 1 + 1⟩

/-- Where a path can be written after the descent, it can be written, or something was there. -/
theorem descend_found {path : String} {new : Value} {found : Option Value} {rest : List String}
    {n : Supply}
    (h : (write path new rest (descend found rest n).1 (descend found rest n).2).1.2 ≠ none) :
    found = some (descend found rest n).1 := by
  have missing (hf : found = none ∨ found = some .null) : False := by
    have hd : descend found rest = if rest.isEmpty then return .null else Value.newMap [] := by
      rcases hf with rfl | rfl <;> rfl
    rw [hd] at h
    cases rest with
    | nil => exact h rfl
    | cons segment rest => exact h (write_newMap path new _ _ _)
  rcases found with _ | v
  · exact (missing (.inl rfl)).elim
  · cases v with
    | null => exact (missing (.inr rfl)).elim
    | _ => rfl

/-- A write that fails leaves all values alike. -/
theorem write_failed : ∀ (segments : List String) (v : Value) (n : Supply),
    (write path new segments v n).1.2 ≠ none → (write path new segments v n).1.1.Like v
  | [], _, _, h => absurd rfl h
  | segment :: rest, .map m entries, n, h => by
    rw [write_map] at h ⊢
    refine Value.Like.map_iff.2 (Entries.insert_like (write_failed rest _ _ h) ?_)
    exact descend_found h
  | segment :: rest, .list m items, n, h => by
    rw [write] at h ⊢
    rcases hf : (position? segment).bind fun i => items[i]?.map (i, ·) with _ | ⟨i, child⟩
    · exact .refl _
    · obtain ⟨j, -, hj⟩ := Option.bind_eq_some_iff.1 hf
      obtain ⟨w, hw, hji⟩ := Option.map_eq_some_iff.1 hj
      cases hji
      rw [hf] at h
      exact Value.Like.list_iff.2 (set_like (write_failed rest child ⟨n.next + 1⟩ h) hw)
  | _ :: _, .null, _, _ | _ :: _, .bool _, _, _ | _ :: _, .int _, _, _ | _ :: _, .float _, _, _
  | _ :: _, .text _, _, _ => .refl _

/-! ## Changes -/

/-- A state later than another one: fields were noted as changed, and all others hold like values.
As long as nothing is noted the whole state is alike, also in the order of its fields. -/
structure Changes (s s' : State) : Prop where
  dirty : ∀ f ∈ s.dirty, f ∈ s'.dirty
  fields : ∀ f, f ∉ s'.dirty → Option.Rel Value.Like (s.entries.get? f) (s'.entries.get? f)
  whole : s'.dirty = [] → s.value.Like s'.value

theorem rel_refl_like : ∀ o : Option Value, Option.Rel Value.Like o o
  | none => .none
  | some v => .some (.refl v)

theorem Changes.of_like {s s' : State} (hd : s'.dirty = s.dirty) (h : s.value.Like s'.value) :
    s.Changes s' where
  dirty := fun _ hf => hd ▸ hf
  fields := fun f _ => get?_rel (Value.Like.map_iff.1 h) f
  whole := fun _ => h

namespace Changes

theorem refl (s : State) : s.Changes s := .of_like rfl (.refl _)

theorem trans {s s' s'' : State} (h : s.Changes s') (h' : s'.Changes s'') : s.Changes s'' where
  dirty := fun f hf => h'.dirty f (h.dirty f hf)
  fields := fun f hf => by
    have first := h.fields f fun hf' => hf (h'.dirty f hf')
    have second := h'.fields f hf
    generalize s.entries.get? f = x at first
    generalize s'.entries.get? f = y at first second
    generalize s''.entries.get? f = z at second
    cases first with
    | none => exact second
    | some hv =>
      cases second with
      | some hw => exact .some (hv.trans hw)
  whole := fun hd => by
    have hd' : s'.dirty = [] := List.eq_nil_iff_forall_not_mem.2 fun f hf => by
      have := h'.dirty f hf
      rw [hd] at this
      cases this
    exact (h.whole hd').trans (h'.whole hd)

end Changes

theorem dirty_ne_nil (f : String) (names : Names) : names.insert f ≠ [] := by
  intro h
  have : f ∈ names.insert f := Names.mem_insert.2 (.inl rfl)
  rw [h] at this
  cases this

theorem touch_changes (s : State) (f : String) : s.Changes (s.touch f) where
  dirty := fun _ hg => Names.mem_insert.2 (.inr hg)
  fields := fun _ _ => rel_refl_like _
  whole := fun hd => absurd hd (dirty_ne_nil f s.dirty)

/-- Writing a field writes the map of all fields at the path, and notes the field if this goes
well. -/
theorem set_eq {path : String} {first : String} {rest : List String} (new : Value) (s : State)
    (hp : segments path = first :: rest) (hs : (first :: rest).any String.isEmpty = false) :
    ∃ mark child failure supply,
      write path new (first :: rest) s.value s.supply =
        ((.map mark (s.entries.insert first child), failure), supply) ∧
      set path new s =
        let written := { s with mark, entries := s.entries.insert first child, supply }
        match failure with
        | some cause => (.error (.bare cause), written)
        | none => (.ok (), { written with dirty := s.dirty.insert first }) := by
  refine ⟨_, _, _, _, rfl, ?_⟩
  unfold set
  rw [hp]
  dsimp only
  rw [if_neg (Bool.eq_false_iff.1 hs)]
  rfl

/-- A write that fails notes nothing and leaves the whole state alike. -/
theorem set_failed {path : String} {new : Value} {s : State} {e : Error}
    (h : (set path new s).1 = .error e) :
    (set path new s).2.dirty = s.dirty ∧ (set path new s).2.value.Like s.value := by
  rcases hp : segments path with _ | ⟨first, rest⟩
  · unfold set
    rw [hp]
    exact ⟨rfl, .refl _⟩
  by_cases hs : (first :: rest).any String.isEmpty = true
  · unfold set
    rw [hp]
    dsimp only
    rw [if_pos hs]
    exact ⟨rfl, .refl _⟩
  obtain ⟨mark, child, failure, supply, hw, eq⟩ := set_eq new s hp (Bool.eq_false_iff.2 hs)
  rw [eq] at h ⊢
  rcases failure with _ | cause
  · cases h
  · have alike := write_failed path new (first :: rest) s.value s.supply
    rw [hw] at alike
    exact ⟨rfl, alike (Option.some_ne_none cause)⟩

/-- A write that succeeds notes the first segment of its path, and leaves all other fields as they
are. -/
theorem set_ok {path : String} {new : Value} {s : State} (h : (set path new s).1 = .ok ()) :
    ∃ first rest, segments path = first :: rest ∧
      (set path new s).2.dirty = s.dirty.insert first ∧
        ∀ field, field ≠ first →
          (set path new s).2.entries.get? field = s.entries.get? field := by
  rcases hp : segments path with _ | ⟨first, rest⟩
  · unfold set at h
    rw [hp] at h
    cases h
  by_cases hs : (first :: rest).any String.isEmpty = true
  · unfold set at h
    rw [hp] at h
    dsimp only at h
    rw [if_pos hs] at h
    cases h
  obtain ⟨mark, child, failure, supply, -, eq⟩ := set_eq new s hp (Bool.eq_false_iff.2 hs)
  rw [eq] at h ⊢
  rcases failure with _ | cause
  · refine ⟨first, rest, rfl, rfl, ?_⟩
    intro field hne
    exact (Entries.get?_insert first child field s.entries).trans (if_neg hne)
  · cases h

/-- A write notes the field that it changes; where it fails, it changes none. -/
theorem set_changes (path : String) (new : Value) (s : State) : s.Changes (set path new s).2 := by
  rcases result : (set path new s).1 with e | _
  · obtain ⟨dirty, alike⟩ := set_failed result
    exact .of_like dirty alike.symm
  · obtain ⟨first, rest, -, dirty, others⟩ := set_ok result
    refine ⟨fun f hf => ?_, fun f hf => ?_, fun clean => ?_⟩
    · rw [dirty]
      exact Names.mem_insert.2 (.inr hf)
    · have other : f ≠ first := by
        rintro rfl
        rw [dirty] at hf
        exact hf (Names.mem_insert.2 (.inl rfl))
      rw [others f other]
      exact rel_refl_like _
    · rw [dirty] at clean
      exact absurd clean (dirty_ne_nil first s.dirty)

end State

/-! ## Access by paths -/

/-- Computations that access the state only by reading a path, writing a path or touching a field.
They may make collections, fail, and go on after a failure. -/
inductive ByPath : ∀ {α : Type}, Effect α → Prop
  | pure {α : Type} (a : α) : ByPath (Pure.pure a : Effect α)
  | fail {α : Type} (e : Error) : ByPath (throw e : Effect α)
  | get (path : String) : ByPath (fun s => (.ok (s.get? path), s) : Effect (Option Value))
  | set (path : String) (v : Value) : ByPath (State.set path v)
  | touch (field : String) : ByPath (fun s => (.ok (), s.touch field) : Effect Unit)
  | make {α : Type} (m : Fresh α) : ByPath (State.alloc m)
  | andThen {α β : Type} {m : Effect α} {f : α → Effect β} :
    ByPath m → (∀ a, ByPath (f a)) → ByPath (m >>= f)
  | attempt {α : Type} {m : Effect α} :
    ByPath m → ByPath (fun s => (.ok (m s).1, (m s).2) : Effect (Except Error α))

theorem State.changes_order : StateOrder State.Changes :=
  ⟨.refl, .trans, fun _ _ => .of_like rfl (.refl _)⟩

theorem ByPath.changes {α : Type} {m : Effect α} (h : ByPath m) : Moves State.Changes m := by
  have hR := State.changes_order
  induction h with
  | pure a => exact hR.pure a
  | fail e => exact hR.refl
  | get path => exact hR.refl
  | set path v => exact State.set_changes path v
  | touch field => exact fun s => State.touch_changes s field
  | make m => exact hR.alloc m
  | andThen _ _ ih ihf => exact hR.bind ih ihf
  | attempt _ ih => exact ih

end LiveTemplate
