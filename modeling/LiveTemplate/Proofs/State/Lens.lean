/-
The laws of reading and writing by paths. A write that succeeds is described without the marks that
it gives out: it goes down from branch to branch, makes maps where there is nothing, and puts the
value at the end. So the value is found at its path afterwards, paths that branch off lead where they
led before, a write at the same path undoes the first one, and maps on the path keep their keys.
-/
import LiveTemplate.Proofs.State.FailedWrites

namespace LiveTemplate

namespace Entries

/-- A key that is there keeps its place, and a new one is added at the end. -/
theorem keys_insert (key : String) (v : Value) (entries : Entries) :
    (Entries.insert key v entries).keys =
      if key ∈ entries.keys then entries.keys else entries.keys ++ [key] := by
  induction entries with
  | nil => rfl
  | cons entry rest ih =>
    obtain ⟨k, u⟩ := entry
    have keys_cons (u : Value) (rest : Entries) : Entries.keys ((k, u) :: rest) = k :: Entries.keys rest :=
      rfl
    unfold Entries.insert
    by_cases hk : k = key
    · subst hk
      rw [if_pos rfl, keys_cons, keys_cons, if_pos List.mem_cons_self]
    · rw [if_neg hk, keys_cons, keys_cons, ih, apply_ite (k :: ·), List.cons_append]
      simp only [List.mem_cons, Ne.symm hk, false_or]

theorem insert_insert (key : String) (v w : Value) (entries : Entries) :
    Entries.insert key w (Entries.insert key v entries) = Entries.insert key w entries := by
  induction entries with
  | nil => simp [Entries.insert]
  | cons entry rest ih =>
    obtain ⟨k, u⟩ := entry
    by_cases hk : k = key
    · simp [Entries.insert, hk]
    · simp [Entries.insert, hk, ih]

end Entries

namespace State

/-! ## Branches -/

/-- What lies below a value: the key of a map, or the position of a list. -/
inductive Branch where
  | key (name : String)
  | position (i : Nat)
deriving DecidableEq

/-- The branch of a value that a segment names. A position of a list has many spellings. -/
def branch (v : Value) (segment : String) : Branch :=
  match v, position? segment with
  | .list .., some i => .position i
  | _, _ => .key segment

/-- The branches on a path from a value. Below what is not there, segments are keys. -/
def branches : Value → List String → List Branch
  | _, [] => []
  | v, segment :: rest => branch v segment :: branches ((child? v segment).getD .null) rest

/-- The value that a write goes on with below a branch: a map where there is nothing. -/
def onward : Value → Value
  | .null => .map 0 []
  | v => v

theorem branches_onward (v : Value) (q : List String) : branches (onward v) q = branches v q := by
  cases v with
  | null => cases q <;> rfl
  | _ => rfl

/-- Nothing is found below a map that was not there. -/
theorem follow_onward (found : Option Value) {q : List String} (hq : q ≠ []) :
    q.foldlM child? (onward (found.getD .null)) = found.bind (q.foldlM child?) := by
  obtain ⟨t, q, rfl⟩ := List.exists_cons_of_ne_nil hq
  rcases found with _ | v
  · rfl
  · cases v <;> rfl

theorem onward_follow (found : Option Value) (q : List String) :
    onward ((q.foldlM child? (onward (found.getD .null))).getD .null) =
      onward ((found.bind (q.foldlM child?)).getD .null) := by
  rcases q with _ | ⟨t, q⟩
  · rcases found with _ | v
    · rfl
    · cases v <;> rfl
  · rw [follow_onward found (List.cons_ne_nil t q)]

/-! ## Writes that succeed -/

/-- What a write at a path makes of a value, up to the marks that it gives out. -/
inductive Written (new : Value) : List String → Value → Value → Prop
  | last (v : Value) : Written new [] v new
  | key {segment : String} {rest : List String} {entries : Entries} {child : Value} (m m' : Mark) :
    Written new rest (onward ((entries.get? segment).getD .null)) child →
      Written new (segment :: rest) (.map m entries) (.map m' (entries.insert segment child))
  | item {segment : String} {rest : List String} {items : List Value} {i : Nat} {old child : Value}
    (m m' : Mark) : position? segment = some i → items[i]? = some old → Written new rest old child →
      Written new (segment :: rest) (.list m items) (.list m' (items.set i child))

namespace Written

variable {new other : Value} {p rest : List String} {v v' : Value}

theorem onward (h : Written new p v v') : Written new p (onward v) v' := by
  cases h with
  | last => exact .last _
  | key m m' h => exact .key m m' h
  | item m m' hi ho h => exact .item m m' hi ho h

/-- Below a write there is nothing that a further write could put a map in place of. -/
theorem of_onward (h : Written new p v v') {w : Value} (hw : Written other p (State.onward v') w) :
    Written other p v' w := by
  cases h with
  | last =>
    cases hw
    exact .last _
  | key => exact hw
  | item => exact hw

/-- At any place on the path, the rest of the path was written below it. -/
theorem along : ∀ (front : List String) {v v' : Value}, Written new (front ++ rest) v v' →
    ∃ u, front.foldlM child? v' = some u ∧
      Written new rest (State.onward ((front.foldlM child? v).getD .null)) u
  | [], v, v', h => ⟨v', rfl, h.onward⟩
  | segment :: front, _, _, @Written.key _ _ _ entries child m m' h => by
    obtain ⟨u, found, written⟩ := along front h
    refine ⟨u, ?_, ?_⟩
    · rw [List.foldlM_cons]
      show ((entries.insert segment child).get? segment).bind _ = _
      rw [Entries.get?_insert, if_pos rfl]
      exact found
    · rw [onward_follow] at written
      rw [List.foldlM_cons]
      exact written
  | segment :: front, _, _, @Written.item _ _ _ items i _ child m m' hi ho h => by
    obtain ⟨u, found, written⟩ := along front h
    have inside : i < items.length := (List.getElem?_eq_some_iff.1 ho).1
    refine ⟨u, ?_, ?_⟩
    · rw [List.foldlM_cons]
      show ((position? segment).bind ((items.set i child)[·]?)).bind _ = _
      rw [hi, Option.bind_some, List.getElem?_set_self inside]
      exact found
    · rw [List.foldlM_cons]
      show Written new rest (State.onward
        ((((position? segment).bind (items[·]?)).bind (front.foldlM child?)).getD .null)) u
      rw [hi, Option.bind_some, ho]
      exact written

/-- The value is found where it was written. -/
theorem found (h : Written new p v v') : p.foldlM child? v' = some new := by
  have whole : Written new (p ++ []) v v' := (List.append_nil p).symm ▸ h
  obtain ⟨u, found, written⟩ := along p whole
  cases written
  exact found

/-- A path that branches off leads where it led before. -/
theorem elsewhere (h : Written new p v v') : ∀ {q : List String},
    ¬ branches v q <+: branches v p → ¬ branches v p <+: branches v q →
      q.foldlM child? v' = q.foldlM child? v := by
  induction h with
  | last v => exact fun _ h => absurd List.nil_prefix h
  | @key segment rest entries child m m' _ ih =>
    intro q hq hp
    rcases q with _ | ⟨t, q⟩
    · exact absurd List.nil_prefix hq
    rw [List.foldlM_cons, List.foldlM_cons]
    show ((entries.insert segment child).get? t).bind (q.foldlM child?) =
      (entries.get? t).bind (q.foldlM child?)
    rw [Entries.get?_insert]
    by_cases ht : t = segment
    · subst ht
      -- both go on below the same key
      have below (p : List String) : branches (.map m entries) (t :: p) =
          .key t :: branches (State.onward ((entries.get? t).getD .null)) p := by
        rw [branches_onward]
        rfl
      rw [below, below, List.cons_prefix_cons, eq_self, true_and] at hq hp
      have further : q ≠ [] := by
        rintro rfl
        exact hq List.nil_prefix
      rw [if_pos rfl]
      exact (ih hq hp).trans (follow_onward _ further)
    · rw [if_neg ht]
  | @item segment rest items i old child m m' hi ho _ ih =>
    intro q hq hp
    rcases q with _ | ⟨t, q⟩
    · exact absurd List.nil_prefix hq
    rw [List.foldlM_cons, List.foldlM_cons]
    show ((position? t).bind ((items.set i child)[·]?)).bind (q.foldlM child?) =
      ((position? t).bind (items[·]?)).bind (q.foldlM child?)
    have inside : i < items.length := (List.getElem?_eq_some_iff.1 ho).1
    rcases hj : position? t with _ | j
    · rfl
    rw [Option.bind_some, Option.bind_some]
    by_cases ht : i = j
    · subst ht
      have below {s : String} (hs : position? s = some i) (p : List String) :
          branches (.list m items) (s :: p) = .position i :: branches old p := by
        have child : child? (.list m items) s = some old := by
          show (position? s).bind (items[·]?) = _
          rw [hs, Option.bind_some, ho]
        have named : branch (.list m items) s = .position i := by
          simp only [branch, hs]
        rw [branches, child, named]
        rfl
      rw [below hi, below hj, List.cons_prefix_cons, eq_self, true_and] at hq hp
      rw [List.getElem?_set_self inside, ho]
      exact ih hq hp
    · rw [List.getElem?_set_ne ht]

/-- What was written can be written with another value. -/
theorem exchange (h : Written new p v v') (other : Value) : ∃ w, Written other p v w := by
  induction h with
  | last v => exact ⟨other, .last v⟩
  | key m m' _ ih => exact ih.imp' _ fun _ h => .key m m' h
  | item m m' hi ho _ ih => exact ih.imp' _ fun _ h => .item m m' hi ho h

/-- What was written can be written again. -/
theorem again (h : Written new p v v') (other : Value) : ∃ w, Written other p v' w := by
  induction h with
  | last v => exact ⟨other, .last new⟩
  | @key segment rest entries child m m' _ ih =>
    obtain ⟨w, hw⟩ := ih
    refine ⟨_, .key m' m' (?_ : Written other rest _ w)⟩
    rw [Entries.get?_insert, if_pos rfl]
    exact hw.onward
  | @item segment rest items i old child m m' hi ho _ ih =>
    obtain ⟨w, hw⟩ := ih
    have inside : i < items.length := (List.getElem?_eq_some_iff.1 ho).1
    exact ⟨_, .item m' m' hi (List.getElem?_set_self inside) hw⟩

/-- The second of two writes at a path makes what it makes alone. -/
theorem overwritten (h : Written new p v v') : ∀ {x y : Value}, Written other p v' x →
    Written other p v y → x.Like y := by
  induction h with
  | last v =>
    intro x y hx hy
    cases hx
    cases hy
    exact .refl _
  | @key segment rest entries child m m' h ih =>
    intro x y hx hy
    cases hx with
    | key _ _ hx =>
      cases hy with
      | key _ _ hy =>
        rw [Entries.get?_insert, if_pos rfl] at hx
        rw [Entries.insert_insert]
        have same := ih (h.of_onward hx) hy
        have entrywise : List.Forall₂ (EntryRel Similarity.likeness.rel) entries entries :=
          List.forall₂_same.2 fun _ _ => ⟨rfl, .refl _⟩
        exact Value.Like.map_iff.2 (Similarity.insert_rel segment same entrywise)
  | @item segment rest items i old child m m' hi ho h ih =>
    intro x y hx hy
    have inside : i < items.length := (List.getElem?_eq_some_iff.1 ho).1
    cases hx with
    | item _ _ hj hc hx =>
      cases hy with
      | item _ _ hk hd hy =>
        obtain rfl := Option.some.inj (hi.symm.trans hj)
        obtain rfl := Option.some.inj (hi.symm.trans hk)
        rw [List.getElem?_set_self inside] at hc
        obtain rfl := Option.some.inj hc
        obtain rfl := Option.some.inj (ho.symm.trans hd)
        rw [List.set_set]
        have same := ih hx hy
        refine Value.Like.list_iff.2 ?_
        have first := set_like same (List.getElem?_set_self inside)
        rwa [List.set_set] at first

end Written

/-! ## Writing -/

variable {path : String} {new : Value}

theorem written_descend {found : Option Value} {rest : List String} {n : Supply} {v : Value} :
    Written new rest (descend found rest n).1 v ↔
      Written new rest (onward (found.getD .null)) v := by
  rcases rest with _ | ⟨segment, rest⟩
  · constructor
    all_goals
      intro h
      cases h
      exact .last _
  · have made (m m' : Mark) (h : Written new (segment :: rest) (.map m []) v) :
        Written new (segment :: rest) (.map m' []) v := by
      cases h with
      | key _ k h => exact .key m' k h
    rcases found with _ | u
    · exact ⟨made _ _, made _ _⟩
    · cases u with
      | null => exact ⟨made _ _, made _ _⟩
      | _ => exact Iff.rfl

/-- A write that succeeds makes what is written at its path. -/
theorem written_of_write : ∀ (p : List String) (v : Value) (n : Supply),
    (write path new p v n).1.2 = none → Written new p v (write path new p v n).1.1
  | [], v, n, _ => .last v
  | segment :: rest, .map m entries, n, h => by
    rw [write_map] at h ⊢
    exact .key m n.next (written_descend.1 (written_of_write rest _ _ h))
  | segment :: rest, .list m items, n, h => by
    rw [write] at h ⊢
    rcases hf : (position? segment).bind fun i => items[i]?.map (i, ·) with _ | ⟨i, child⟩
    · rw [hf] at h
      cases h
    · rw [hf] at h
      obtain ⟨j, hj, hm⟩ := Option.bind_eq_some_iff.1 hf
      obtain ⟨u, hu, eq⟩ := Option.map_eq_some_iff.1 hm
      cases eq
      exact .item m n.next hj hu (written_of_write rest child ⟨n.next + 1⟩ h)
  | _ :: _, .null, _, h | _ :: _, .bool _, _, h | _ :: _, .int _, _, h | _ :: _, .float _, _, h
  | _ :: _, .text _, _, h => nomatch h

/-- What can be written at a path is written. -/
theorem write_of_written {p : List String} {v v' : Value} (h : Written new p v v') :
    ∀ n : Supply, (write path new p v n).1.2 = none := by
  induction p generalizing v v' with
  | nil => exact fun _ => rfl
  | cons segment rest ih =>
    intro n
    cases h with
    | key m m' h =>
      rw [write_map]
      exact ih (written_descend.2 h) _
    | @item _ _ items i old child m m' hi ho h =>
      rw [write, hi, Option.bind_some, ho]
      exact ih h _

/-- A write that succeeds has written the state at the path, and notes the first segment. -/
theorem set_written {s s' : State} (h : set path new s = (.ok (), s')) :
    ∃ first rest, segments path = first :: rest ∧ (first :: rest).any String.isEmpty = false ∧
      Written new (first :: rest) s.value s'.value ∧ s'.dirty = s.dirty.insert first := by
  have ok : (set path new s).1 = .ok () := congrArg Prod.fst h
  obtain ⟨first, rest, hp, dirty, -⟩ := set_ok ok
  have named : (first :: rest).any String.isEmpty = false := by
    rw [← Bool.not_eq_true]
    intro hs
    unfold set at ok
    rw [hp] at ok
    dsimp only at ok
    rw [if_pos hs] at ok
    cases ok
  obtain ⟨mark, child, failure, supply, hw, eq⟩ := set_eq new s hp named
  have written : (write path new (first :: rest) s.value s.supply).1.2 = none → _ :=
    written_of_write (first :: rest) s.value s.supply
  rw [hw] at written
  rw [h] at dirty eq
  rcases failure with _ | cause
  · obtain rfl : s' = _ := congrArg Prod.snd eq
    exact ⟨first, rest, hp, named, written rfl, dirty⟩
  · cases congrArg Prod.fst eq

/-- Where the state can be written, writing it succeeds. -/
theorem set_of_written {s : State} {first : String} {rest : List String} {v : Value}
    (hp : segments path = first :: rest) (named : (first :: rest).any String.isEmpty = false)
    (h : Written new (first :: rest) s.value v) : ∃ s', set path new s = (.ok (), s') := by
  obtain ⟨mark, child, failure, supply, hw, eq⟩ := set_eq new s hp named
  have done : (write path new (first :: rest) s.value s.supply).1.2 = none :=
    write_of_written h s.supply
  rw [hw] at done
  rw [eq, show failure = none from done]
  exact ⟨_, rfl⟩

/-- What a write that succeeds does. The value is found at the path; a path that branches off leads
where it led; a second write at the path succeeds and leaves what it leaves alone, up to the identity
of collections; each map on the path, also one that is made, keeps its keys in order and gets the next
segment as its last key if it lacks it; and the first segment is noted as changed. -/
theorem set_lens {s s' : State} (h : set path new s = (.ok (), s')) :
    s'.get? path = some new ∧
      (∀ q, ¬ branches s.value (segments q) <+: branches s.value (segments path) →
        ¬ branches s.value (segments path) <+: branches s.value (segments q) →
          s'.get? q = s.get? q) ∧
      (∀ other, ∃ twice once, set path other s' = (.ok (), twice) ∧
        set path other s = (.ok (), once) ∧ twice.value.Like once.value) ∧
      (∀ front segment rest, segments path = front ++ segment :: rest → ∀ m (entries : Entries),
        onward ((front.foldlM child? s.value).getD .null) = .map m entries →
          ∃ m' entries', front.foldlM child? s'.value = some (.map m' entries') ∧
            Entries.keys entries' = if segment ∈ entries.keys then entries.keys
              else entries.keys ++ [segment]) ∧
      ∀ field, field ∈ s'.dirty ↔ (segments path).head? = some field ∨ field ∈ s.dirty := by
  obtain ⟨first, rest, hp, named, written, dirty⟩ := set_written h
  rw [hp]
  refine ⟨?_, fun q hq hp => written.elsewhere hq hp, fun other => ?_, ?_, fun field => ?_⟩
  · rw [get?, hp]
    exact written.found
  · obtain ⟨x, hx⟩ := written.again other
    obtain ⟨y, hy⟩ := written.exchange other
    obtain ⟨twice, ht⟩ := set_of_written hp named hx
    obtain ⟨once, ho⟩ := set_of_written hp named hy
    refine ⟨twice, once, ht, ho, ?_⟩
    obtain ⟨_, _, hp', -, hx, -⟩ := set_written ht
    obtain ⟨_, _, hp'', -, hy, -⟩ := set_written ho
    rw [hp] at hp' hp''
    cases hp'
    cases hp''
    exact written.overwritten hx hy
  · intro front segment rest' split m entries before
    rw [split] at written
    obtain ⟨u, found, written⟩ := written.along front
    rw [before] at written
    cases written with
    | key _ m' _ => exact ⟨m', _, found, Entries.keys_insert segment _ entries⟩
  · rw [dirty, Names.mem_insert, List.head?_cons, Option.some.injEq, eq_comm]

/-- A write through a list, whose position is spelled in two ways, that makes a map in place of a
null. -/
theorem set_lens_spelled :
    let path := "todos.00.done.by"
    let s : State :=
      ⟨0, [("todos", .list 1 [.map 2 [("done", .null), ("text", .text "a")]])], ["n"], ⟨3⟩⟩
    ∃ s', set path (.int 1) s = (.ok (), s') ∧
      s'.get? path = some (.int 1) ∧
      s'.get? "todos.+0.text" = s.get? "todos.+0.text" ∧
      (∃ twice once, set path .null s' = (.ok (), twice) ∧ set path .null s = (.ok (), once) ∧
        twice.value.Like once.value) ∧
      (∃ m entries, ["todos", "00"].foldlM child? s'.value = some (.map m entries) ∧
        Entries.keys entries = ["done", "text"]) ∧
      (∃ m entries, ["todos", "00", "done"].foldlM child? s'.value = some (.map m entries) ∧
        Entries.keys entries = ["by"]) ∧
      ∀ field, field ∈ s'.dirty ↔ some "todos" = some field ∨ field ∈ ["n"] := by
  intro path s
  have ok : (set path (.int 1) s).1 = .ok () := by decide +kernel
  have written : set path (.int 1) s = (.ok (), (set path (.int 1) s).2) := Prod.ext ok rfl
  have split : segments path = ["todos", "00", "done", "by"] := by decide +kernel
  have apart : ¬ branches s.value (segments "todos.+0.text") <+: branches s.value (segments path) ∧
      ¬ branches s.value (segments path) <+: branches s.value (segments "todos.+0.text") := by
    decide +kernel
  obtain ⟨found, elsewhere, again, maps, dirty⟩ := set_lens written
  rw [split] at dirty
  exact ⟨_, written, found, elsewhere _ apart.1 apart.2, again .null,
    maps ["todos", "00"] "done" ["by"] split _ _ rfl,
    maps ["todos", "00", "done"] "by" [] split _ _ rfl, dirty⟩

end State

end LiveTemplate
