/-
The actions that a change concerns. The dependencies of a program tell for every field exactly the
actions that read it, so an action that is not concerned by a change reads none of the changed
fields, and it reads the whole state only if nothing changed.
-/
import LiveTemplate.Program.Dependencies
import LiveTemplate.Proofs.Expr.Reads
import LiveTemplate.Proofs.Program.Placement
import Mathlib.Data.String.Basic

namespace LiveTemplate

namespace Names

/-- Names in ascending order. -/
def Sorted (names : Names) : Prop := names.Pairwise (· < ·)

theorem Sorted.insert {name : String} : ∀ {names : Names}, names.Sorted → (names.insert name).Sorted
  | [], _ => List.pairwise_singleton _ _
  | n :: rest, h => by
    obtain ⟨hn, hr⟩ := List.pairwise_cons.1 h
    unfold Names.insert
    split
    · exact h
    · rename_i hne
      split
      · rename_i hlt
        refine List.pairwise_cons.2 ⟨fun m hm => ?_, h⟩
        rcases List.mem_cons.1 hm with rfl | hm
        · exact hlt
        · exact lt_trans hlt (hn m hm)
      · rename_i hlt
        refine List.pairwise_cons.2 ⟨fun m hm => ?_, Sorted.insert hr⟩
        rcases Names.mem_insert.1 hm with rfl | hm
        · exact lt_of_le_of_ne (not_lt.1 hlt) (Ne.symm hne)
        · exact hn m hm

end Names

namespace Dependencies

variable {id a : ActionId} {field f : String}

/-! ## Fields -/

theorem addField_keys : ∀ fields : List (String × List ActionId),
    (addField id field fields).map (·.1) = Names.insert field (fields.map (·.1))
  | [] => rfl
  | (g, ids) :: rest => by
    unfold addField
    rw [List.map_cons, Names.insert]
    split
    · rfl
    · split
      · rfl
      · rw [List.map_cons, addField_keys rest]

/-- Noting an action under a field changes what stands under this field only. -/
theorem lookup_addField : ∀ {fields : List (String × List ActionId)},
    Names.Sorted (fields.map (·.1)) →
    (addField id field fields).lookup f =
      if f = field then some ((fields.lookup field).getD [] ++ [id]) else fields.lookup f
  | [], _ => by
    rw [addField, lookup_cons_if]
    rfl
  | (g, ids) :: rest, h => by
    obtain ⟨hg, hr⟩ := List.pairwise_cons.1 h
    unfold addField
    split
    · rename_i heq
      subst heq
      rw [lookup_cons_if, lookup_cons_if, lookup_cons_if, if_pos rfl]
      split <;> rfl
    · rename_i hne
      split
      · rename_i hlt
        have absent : rest.lookup field = none := by
          refine List.lookup_eq_none_iff.2 fun e he => ?_
          have greater := lt_trans hlt (hg e.1 (List.mem_map_of_mem he))
          exact bne_iff_ne.2 (ne_of_lt greater)
        rw [lookup_cons_if, lookup_cons_if, lookup_cons_if, if_neg hne, absent]
        rfl
      · rw [lookup_cons_if, lookup_cons_if, lookup_cons_if, if_neg hne, lookup_addField hr]
        by_cases hf : f = field
        · subst hf
          rw [if_pos rfl, if_neg hne, if_pos rfl]
        · rw [if_neg hf, if_neg hf]

/-! ## Programs -/

/-- The dependencies tell exactly what the given actions read. -/
structure Tells (deps : Dependencies) (known : List (Action × ActionId)) : Prop where
  sorted : Names.Sorted (deps.fields.map (·.1))
  get : ∀ f a, a ∈ deps.get f ↔ ∃ action, (action, a) ∈ known ∧ f ∈ action.fields
  any : ∀ a, a ∈ deps.any ↔ ∃ action, (action, a) ∈ known ∧ action.any = true

theorem addFields_get : ∀ (names : List String) {fields : List (String × List ActionId)},
    Names.Sorted (fields.map (·.1)) →
    Names.Sorted ((names.foldl (fun fields f => addField id f fields) fields).map (·.1)) ∧
      (a ∈ ((names.foldl (fun fields f => addField id f fields) fields).lookup f).getD [] ↔
        a ∈ (fields.lookup f).getD [] ∨ a = id ∧ f ∈ names)
  | [], _, h => ⟨h, by simp⟩
  | n :: rest, fields, h => by
    have sorted : Names.Sorted ((addField id n fields).map (·.1)) := by
      rw [addField_keys]
      exact h.insert
    obtain ⟨hs, hg⟩ := addFields_get rest sorted
    refine ⟨hs, ?_⟩
    rw [List.foldl_cons, hg, lookup_addField h, List.mem_cons]
    by_cases hf : f = n
    · subst hf
      simp
      tauto
    · simp [hf]

theorem exists_known_concat {known : List (Action × ActionId)} {action : Action}
    {P : Action → Prop} :
    (∃ x, (x, a) ∈ known ++ [(action, id)] ∧ P x) ↔
      (∃ x, (x, a) ∈ known ∧ P x) ∨ a = id ∧ P action := by
  constructor
  · rintro ⟨x, hk, hx⟩
    rcases List.mem_append.1 hk with hk | hk
    · exact .inl ⟨x, hk, hx⟩
    · cases List.mem_singleton.1 hk
      exact .inr ⟨rfl, hx⟩
  · rintro (⟨x, hk, hx⟩ | ⟨rfl, hx⟩)
    · exact ⟨x, List.mem_append_left _ hk, hx⟩
    · exact ⟨action, List.mem_append_right _ (List.mem_singleton.2 rfl), hx⟩

theorem Tells.add {deps : Dependencies} {known : List (Action × ActionId)} (h : deps.Tells known)
    (id : ActionId) (action : Action) : (deps.add id action).Tells (known ++ [(action, id)]) := by
  refine ⟨(addFields_get action.fields h.sorted (f := "") (a := id)).1, fun f a => ?_, fun a => ?_⟩
  · rw [exists_known_concat, ← h.get]
    exact (addFields_get action.fields h.sorted).2
  · rw [exists_known_concat, ← h.any]
    unfold Dependencies.add
    by_cases ha : action.any = true <;> simp [ha]

theorem Tells.foldl : ∀ (rest : List (Action × ActionId)) {deps : Dependencies}
    {known : List (Action × ActionId)}, deps.Tells known →
    (rest.foldl (fun deps (action, id) => deps.add id action) deps).Tells (known ++ rest)
  | [], _, known, h => by rwa [List.append_nil]
  | (action, id) :: rest, _, known, h => by
    rw [List.append_cons]
    exact Tells.foldl rest (h.add id action)

theorem ofActions_tells (actions : List Action) : (ofActions actions).Tells actions.zipIdx := by
  have none : (⟨[], []⟩ : Dependencies).Tells [] :=
    ⟨List.Pairwise.nil, by simp [Dependencies.get], by simp⟩
  exact Tells.foldl actions.zipIdx none

/-! ## Changes -/

theorem mem_insertId : ∀ {set : List ActionId}, a ∈ insertId id set ↔ a = id ∨ a ∈ set
  | [] => by simp [insertId]
  | n :: rest => by
    unfold insertId
    split
    · subst_vars
      simp
    · split
      · simp
      · rw [List.mem_cons, List.mem_cons, mem_insertId]
        tauto

theorem mem_foldl_insertId : ∀ {ids set : List ActionId},
    a ∈ ids.foldl (fun set id => insertId id set) set ↔ a ∈ ids ∨ a ∈ set
  | [], _ => by simp
  | id :: rest, set => by
    rw [List.foldl_cons, mem_foldl_insertId, mem_insertId, List.mem_cons]
    tauto

theorem insertId_sorted : ∀ {set : List ActionId}, set.Pairwise (· < ·) →
    (insertId id set).Pairwise (· < ·)
  | [], _ => List.pairwise_singleton _ _
  | n :: rest, h => by
    obtain ⟨hn, hr⟩ := List.pairwise_cons.1 h
    unfold insertId
    split
    · exact h
    · rename_i hne
      split
      · rename_i hlt
        refine List.pairwise_cons.2 ⟨fun m hm => ?_, h⟩
        rcases List.mem_cons.1 hm with rfl | hm
        · exact hlt
        · exact hlt.trans (hn m hm)
      · rename_i hlt
        refine List.pairwise_cons.2 ⟨fun m hm => ?_, insertId_sorted hr⟩
        rcases mem_insertId.1 hm with rfl | hm
        · exact lt_of_le_of_ne (not_lt.1 hlt) (Ne.symm hne)
        · exact hn m hm

theorem foldl_insertId_sorted : ∀ (ids : List ActionId) {set : List ActionId},
    set.Pairwise (· < ·) →
      (ids.foldl (fun set id => insertId id set) set).Pairwise (· < ·)
  | [], _, h => h
  | _ :: rest, _, h => foldl_insertId_sorted rest (insertId_sorted h)

/-- The actions that a change concerns are those that read a changed field, and those that read the
whole state if anything changed. -/
theorem mem_actionsFor {deps : Dependencies} {changed : List String} :
    a ∈ deps.actionsFor changed ↔ (∃ f ∈ changed, a ∈ deps.get f) ∨ changed ≠ [] ∧ a ∈ deps.any := by
  unfold actionsFor
  rw [mem_foldl_insertId, List.mem_append, List.mem_flatMap]
  cases changed with
  | nil => simp
  | cons f rest => simp

end Dependencies

/-- A change concerns the actions that are noted to read a changed field, and those that are noted
to read the whole state if anything changed. -/
theorem Program.mem_actionsFor {program : Program} {changed : List String} {a : ActionId} :
    a ∈ (Dependencies.ofActions program.actions.toList).actionsFor changed ↔
      ∃ action, program.actions[a]? = some action ∧
        ((∃ f ∈ changed, f ∈ action.fields) ∨ changed ≠ [] ∧ action.any = true) := by
  have tells := Dependencies.ofActions_tells program.actions.toList
  simp only [Dependencies.mem_actionsFor, tells.get, tells.any, List.mem_zipIdx_iff_getElem?,
    Array.getElem?_toList]
  constructor
  · rintro (⟨f, hf, action, hi, hr⟩ | ⟨hc, action, hi, hany⟩)
    · exact ⟨action, hi, .inl ⟨f, hf, hr⟩⟩
    · exact ⟨action, hi, .inr ⟨hc, hany⟩⟩
  · rintro ⟨action, hi, ⟨f, hf, hr⟩ | ⟨hc, hany⟩⟩
    · exact .inl ⟨f, hf, action, hi, hr⟩
    · exact .inr ⟨hc, action, hi, hany⟩

/-- An action that is not concerned by a change reads no changed field and not the whole state. -/
theorem Program.reads_unchanged {program : Program} {changed : List String} {a : ActionId}
    {reads : Reads} (hr : program.reads? a = some reads) (hc : changed ≠ [])
    (ha : a ∉ (Dependencies.ofActions program.actions.toList).actionsFor changed) :
    reads.any = false ∧ ∀ f ∈ reads.fields, f ∉ changed := by
  unfold Program.reads? at hr
  rw [List.getElem?_map, Option.map_eq_some_iff] at hr
  obtain ⟨action, hi, rfl⟩ := hr
  rw [Array.getElem?_toList] at hi
  rw [Program.mem_actionsFor] at ha
  constructor
  · by_contra hany
    exact ha ⟨action, hi, .inr ⟨hc, by simpa [Action.reads] using hany⟩⟩
  · exact fun f hf hfc => ha ⟨action, hi, .inl ⟨f, hfc, hf⟩⟩

end LiveTemplate
