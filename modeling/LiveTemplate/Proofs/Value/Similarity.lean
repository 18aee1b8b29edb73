/-
Values up to identity. The contents of a value are what is left when the marks of its lists and
maps are forgotten, and two values are alike when they have the same contents. A similarity is a
relation between the values of two runs that is at least as fine: equality for two runs from one
supply of marks, likeness for two runs that mark their collections on their own.
-/
import LiveTemplate.Value.Basic
import Mathlib.Data.List.Forall2
import Mathlib.Tactic

namespace LiveTemplate

namespace Value

/-! ## Contents -/

mutual

/-- The value with its identities forgotten: every list and map gets the same mark. -/
def contents : Value → Value
  | null => null
  | bool b => bool b
  | int i => int i
  | float x => float x
  | text s => text s
  | list _ items => list 0 (contentsAll items)
  | map _ entries => map 0 (contentsEntries entries)

def contentsAll : List Value → List Value
  | [] => []
  | v :: rest => contents v :: contentsAll rest

def contentsEntries : List (String × Value) → Entries
  | [] => []
  | (k, v) :: rest => (k, contents v) :: contentsEntries rest

end

theorem contentsAll_eq_map : ∀ items : List Value, contentsAll items = items.map contents
  | [] => rfl
  | v :: rest => by rw [contentsAll, contentsAll_eq_map rest, List.map_cons]

theorem contentsEntries_eq_map : ∀ entries : Entries,
    contentsEntries entries = entries.map fun e => (e.1, e.2.contents)
  | [] => rfl
  | (k, v) :: rest => by rw [contentsEntries, contentsEntries_eq_map rest, List.map_cons]

/-- Equal but for the identity of lists and maps. -/
def Like (a b : Value) : Prop := a.contents = b.contents

namespace Like

variable {a b c : Value}

theorem refl (a : Value) : Like a a := rfl

theorem symm (h : Like a b) : Like b a := Eq.symm h

theorem trans (h : Like a b) (h' : Like b c) : Like a c := Eq.trans h h'

/-- Whatever can be told from the contents alone is the same for like values. -/
theorem view {α : Type} (f : Value → α) (hf : ∀ v, f v.contents = f v) (h : Like a b) :
    f a = f b := by
  rw [← hf a, ← hf b, show a.contents = b.contents from h]

theorem list_iff {m m' : Mark} {xs ys : List Value} :
    Like (.list m xs) (.list m' ys) ↔ List.Forall₂ Like xs ys := by
  unfold Like
  rw [contents, contents, contentsAll_eq_map, contentsAll_eq_map]
  constructor
  · intro h
    injection h with _ h
    exact List.forall₂_map_left_iff.1 (List.forall₂_map_right_iff.1
      (List.forall₂_eq_eq_eq ▸ h))
  · intro h
    have : xs.map contents = ys.map contents := by
      induction h with
      | nil => rfl
      | cons hab _ ih => rw [List.map_cons, List.map_cons, hab, ih]
    rw [this]

/-- Like values are the same scalar, two lists or two maps. -/
theorem shape (h : Like a b) :
    (a = b ∧ a.isCollection = false) ∨ (∃ m m' xs ys, a = .list m xs ∧ b = .list m' ys) ∨
      ∃ m m' xs ys, a = .map m xs ∧ b = .map m' ys := by
  unfold Like at h
  cases a with
  | list m xs =>
    cases b with
    | list m' ys => exact .inr (.inl ⟨m, m', xs, ys, rfl, rfl⟩)
    | _ => simp [contents] at h
  | map m xs =>
    cases b with
    | map m' ys => exact .inr (.inr ⟨m, m', xs, ys, rfl, rfl⟩)
    | _ => simp [contents] at h
  | _ =>
    cases b with
    | list _ _ => simp [contents] at h
    | map _ _ => simp [contents] at h
    | _ => exact .inl ⟨h, rfl⟩

end Like

end Value

/-- Two entries under one key, with related values. -/
def EntryRel (r : Value → Value → Prop) (e f : String × Value) : Prop := e.1 = f.1 ∧ r e.2 f.2

theorem get?_rel {r : Value → Value → Prop} {xs ys : Entries} (h : List.Forall₂ (EntryRel r) xs ys)
    (key : String) : Option.Rel r (xs.get? key) (ys.get? key) := by
  unfold Entries.get?
  induction h with
  | nil => exact .none
  | @cons e f _ _ hef _ ih =>
    obtain ⟨k, v⟩ := e
    obtain ⟨k', w⟩ := f
    obtain ⟨rfl, hv⟩ := hef
    rw [List.lookup_cons, List.lookup_cons]
    cases key == k with
    | true => exact .some hv
    | false => exact ih

theorem Value.Like.map_iff {m m' : Mark} {xs ys : Entries} :
    Like (.map m xs) (.map m' ys) ↔ List.Forall₂ (EntryRel Like) xs ys := by
  unfold Like
  rw [contents, contents, contentsEntries_eq_map, contentsEntries_eq_map]
  constructor
  · intro h
    injection h with _ h
    induction xs generalizing ys with
    | nil => cases ys with
      | nil => exact .nil
      | cons f ys => simp at h
    | cons e xs ih => cases ys with
      | nil => simp at h
      | cons f ys =>
        rw [List.map_cons, List.map_cons] at h
        injection h with he h
        injection he with hk hv
        exact .cons ⟨hk, hv⟩ (ih h)
  · intro h
    congr 1
    induction h with
    | nil => rfl
    | cons hef _ ih =>
      obtain ⟨hk, hv⟩ := hef
      rw [List.map_cons, List.map_cons, hk, show _ = _ from hv, ih]

/-! ## Similarities -/

/-- How the values of two runs correspond, and how the supplies of marks they draw from do. -/
structure Similarity where
  rel : Value → Value → Prop
  supplies : Supply → Supply → Prop
  refl : ∀ v, rel v v
  like : ∀ {a b}, rel a b → a.Like b
  items : ∀ {m m' xs ys}, rel (.list m xs) (.list m' ys) → List.Forall₂ rel xs ys
  entries : ∀ {m m' xs ys}, rel (.map m xs) (.map m' ys) → List.Forall₂ (EntryRel rel) xs ys
  newList : ∀ {n n' xs ys}, supplies n n' → List.Forall₂ rel xs ys →
    rel (.list n.next xs) (.list n'.next ys)
  newMap : ∀ {n n' xs ys}, supplies n n' → List.Forall₂ (EntryRel rel) xs ys →
    rel (.map n.next xs) (.map n'.next ys)
  next : ∀ {n n' : Supply}, supplies n n' → supplies ⟨n.next + 1⟩ ⟨n'.next + 1⟩

theorem forall₂_entryRel_eq {xs ys : Entries} (h : List.Forall₂ (EntryRel (· = ·)) xs ys) :
    xs = ys := by
  induction h with
  | nil => rfl
  | cons hef _ ih =>
    rw [ih, Prod.ext hef.1 hef.2]

namespace Similarity

/-- Equal values, from one supply. -/
def exact : Similarity where
  rel := (· = ·)
  supplies := (· = ·)
  refl _ := rfl
  like h := h ▸ Value.Like.refl _
  items h := by
    injection h with _ h
    rw [h, List.forall₂_eq_eq_eq]
  entries h := by
    injection h with _ h
    rw [h]
    exact List.forall₂_same.2 fun _ _ => ⟨rfl, rfl⟩
  newList hn h := by
    rw [List.forall₂_eq_eq_eq] at h
    rw [hn, h]
  newMap hn h := by
    rw [hn, forall₂_entryRel_eq h]
  next h := by rw [h]

/-- Like values, from any two supplies. -/
def likeness : Similarity where
  rel := Value.Like
  supplies _ _ := True
  refl := Value.Like.refl
  like h := h
  items := Value.Like.list_iff.1
  entries := Value.Like.map_iff.1
  newList _ := Value.Like.list_iff.2
  newMap _ := Value.Like.map_iff.2
  next _ := trivial

/-- Whether related values have the same identities. -/
def KeepsIdentity (sim : Similarity) : Prop :=
  ∀ {a b a' b'}, sim.rel a b → sim.rel a' b' → a.same a' = b.same b'

/-- Whatever can be told from the contents alone is the same for related values. -/
theorem view {sim : Similarity} {α : Type} (f : Value → α) (hf : ∀ v, f v.contents = f v)
    {a b : Value} (h : sim.rel a b) : f a = f b :=
  (sim.like h).view f hf

theorem exact_keepsIdentity : exact.KeepsIdentity := by
  intro a b a' b' h h'
  rw [show a = b from h, show a' = b' from h']

variable {sim : Similarity} {a b : Value}

/-- Related values are the same scalar, two lists of related items or two maps of related
entries. -/
theorem shape (h : sim.rel a b) :
    (a = b ∧ a.isCollection = false) ∨
      (∃ m m' xs ys, a = .list m xs ∧ b = .list m' ys ∧ List.Forall₂ sim.rel xs ys) ∨
      ∃ m m' xs ys, a = .map m xs ∧ b = .map m' ys ∧ List.Forall₂ (EntryRel sim.rel) xs ys := by
  rcases (sim.like h).shape with h' | ⟨m, m', xs, ys, rfl, rfl⟩ | ⟨m, m', xs, ys, rfl, rfl⟩
  · exact .inl h'
  · exact .inr (.inl ⟨m, m', xs, ys, rfl, rfl, sim.items h⟩)
  · exact .inr (.inr ⟨m, m', xs, ys, rfl, rfl, sim.entries h⟩)

end Similarity

end LiveTemplate
