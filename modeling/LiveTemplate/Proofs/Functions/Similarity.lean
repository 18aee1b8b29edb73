/-
Functions in two similar runs. The built-in functions and the methods of values tell nothing of
the identity of collections, with the exception of the searches `includes` and `indexOf` in lists:
related arguments give related results, or the same error.
-/
import LiveTemplate.Functions.Builtins
import LiveTemplate.Functions.Methods
import LiveTemplate.Proofs.Computation
import LiveTemplate.Proofs.Value.Similarity

namespace LiveTemplate

namespace Value

/-! ## What the contents tell -/

theorem isNull_contents (v : Value) : v.contents.isNull = v.isNull := by cases v <;> rfl

theorem truthy_contents (v : Value) : v.contents.truthy = v.truthy := by cases v <;> rfl

theorem kindName_contents (v : Value) : v.contents.kindName = v.kindName := by cases v <;> rfl

theorem typeName_contents (v : Value) : v.contents.typeName = v.typeName := by cases v <;> rfl

theorem toNumber_contents (v : Value) : v.contents.toNumber = v.toNumber := by cases v <;> rfl

theorem isCollection_contents (v : Value) : v.contents.isCollection = v.isCollection := by
  cases v <;> rfl

theorem isList_contents (v : Value) : Builtin.isList v.contents = Builtin.isList v := by
  cases v <;> rfl

mutual

theorem display_contents : ∀ v : Value, v.contents.display = v.display
  | .null | .bool _ | .int _ | .float _ | .text _ => rfl
  | .map _ _ => by rw [contents, display, display]
  | .list _ items => by rw [contents, display, display, displayAll_contents items]

theorem displayAll_contents : ∀ items : List Value,
    displayAll (contentsAll items) = displayAll items
  | [] => rfl
  | v :: rest => by
    rw [contentsAll, displayAll, displayAll, display_contents v, displayAll_contents rest]

end

theorem pageText?_contents (v : Value) : v.contents.pageText? = v.pageText? := by
  cases v with
  | list | map => rfl
  | _ => exact congrArg some (display_contents _)

theorem property?_contents (name : String) (v : Value) :
    v.contents.property? name = v.property? name := by
  cases v with
  | list m items =>
    rw [contents, contentsAll_eq_map]
    by_cases h : name = "length"
    · subst h
      simp only [property?, List.length_map]
    · simp [property?, h]
  | map => rfl
  | _ => rfl

end Value

namespace Json

open Value

mutual

theorem compact_contents : ∀ v : Value, compact v.contents = compact v
  | .null | .bool _ | .int _ | .float _ | .text _ => rfl
  | .list _ items => by rw [contents, compact, compact, compactItems_contents items]
  | .map _ entries => by rw [contents, compact, compact, compactEntries_contents entries]

theorem compactItems_contents : ∀ items : List Value,
    compactItems (contentsAll items) = compactItems items
  | [] => rfl
  | v :: rest => by
    rw [contentsAll, compactItems, compactItems, compact_contents v, compactItems_contents rest]

theorem compactEntries_contents : ∀ entries : Entries,
    compactEntries (contentsEntries entries) = compactEntries entries
  | [] => rfl
  | (k, v) :: rest => by
    rw [contentsEntries, compactEntries, compactEntries, compact_contents v,
      compactEntries_contents rest]

end

mutual

theorem pretty_contents (indent : String) : ∀ v : Value, pretty indent v.contents = pretty indent v
  | .null | .bool _ | .int _ | .float _ | .text _ => rfl
  | .list _ items => by rw [contents, pretty, pretty, prettyItems_contents _ items]
  | .map _ entries => by rw [contents, pretty, pretty, prettyEntries_contents _ entries]

theorem prettyItems_contents (indent : String) : ∀ items : List Value,
    prettyItems indent (contentsAll items) = prettyItems indent items
  | [] => rfl
  | v :: rest => by
    rw [contentsAll, prettyItems, prettyItems, pretty_contents indent v,
      prettyItems_contents indent rest]

theorem prettyEntries_contents (indent : String) : ∀ entries : Entries,
    prettyEntries indent (contentsEntries entries) = prettyEntries indent entries
  | [] => rfl
  | (k, v) :: rest => by
    rw [contentsEntries, prettyEntries, prettyEntries, pretty_contents indent v,
      prettyEntries_contents indent rest]

end

end Json

/-! ## Outcomes -/

/-- The outcomes of two runs: related results, or the same error. -/
inductive Outcome {α β : Type} (r : α → β → Prop) : Except Error α → Except Error β → Prop
  | ok {a : α} {b : β} (h : r a b) : Outcome r (.ok a) (.ok b)
  | error (e : Error) : Outcome r (.error e) (.error e)

theorem Outcome.mono {α β : Type} {r q : α → β → Prop} {x : Except Error α} {y : Except Error β}
    (h : Outcome r x y) (hq : ∀ {a b}, r a b → q a b) : Outcome q x y := by
  cases h with
  | ok hab => exact .ok (hq hab)
  | error e => exact .error e

namespace Similarity

variable {sim : Similarity}

/-- Two computations that make collections give related results from related supplies. -/
def Makes (sim : Similarity) {α β : Type} (r : α → β → Prop) (m : Fresh α) (m' : Fresh β) : Prop :=
  ∀ n n' : Supply, sim.supplies n n' →
    r (m n).1 (m' n').1 ∧ sim.supplies (m n).2 (m' n').2

/-- Two computations that make collections and may fail have related outcomes. -/
def Yields (sim : Similarity) {α β : Type} (r : α → β → Prop) (m : ExceptT Error Fresh α)
    (m' : ExceptT Error Fresh β) : Prop :=
  ∀ n n' : Supply, sim.supplies n n' →
    Outcome r (m n).1 (m' n').1 ∧ sim.supplies (m n).2 (m' n').2

/-- A function that gives related values for related arguments. -/
def Respects (sim : Similarity) (f : Function) : Prop :=
  ∀ args args' : List Value, List.Forall₂ sim.rel args args' →
    sim.Yields sim.rel (f args) (f args')

theorem exact_respects (f : Function) : exact.Respects f := by
  intro args args' h n n' hn
  rw [show args = args' from List.forall₂_eq_eq_eq ▸ h, show n = n' from hn]
  refine ⟨?_, rfl⟩
  cases (f args' n').1 with
  | ok v => exact .ok rfl
  | error e => exact .error e

variable {α β γ δ : Type} {r : α → β → Prop} {q : γ → δ → Prop}

theorem makes_pure {a : α} {b : β} (h : r a b) :
    sim.Makes r (pure a : Fresh α) (pure b : Fresh β) :=
  fun _ _ hn => ⟨h, hn⟩

theorem makes_newList {xs ys : List Value} (h : List.Forall₂ sim.rel xs ys) :
    sim.Makes sim.rel (Value.newList xs) (Value.newList ys) :=
  fun _ _ hn => ⟨sim.newList hn h, sim.next hn⟩

theorem makes_newMap {xs ys : Entries} (h : List.Forall₂ (EntryRel sim.rel) xs ys) :
    sim.Makes sim.rel (Value.newMap xs) (Value.newMap ys) :=
  fun _ _ hn => ⟨sim.newMap hn h, sim.next hn⟩

theorem Makes.yields {m : Fresh α} {m' : Fresh β} (h : sim.Makes r m m') :
    sim.Yields r (m : ExceptT Error Fresh α) (m' : ExceptT Error Fresh β) := by
  intro n n' hn
  obtain ⟨hr, hk⟩ := h n n' hn
  exact ⟨.ok hr, hk⟩

theorem yields_pure {a : α} {b : β} (h : r a b) :
    sim.Yields r (pure a : ExceptT Error Fresh α) (pure b : ExceptT Error Fresh β) :=
  fun _ _ hn => ⟨.ok h, hn⟩

theorem yields_throw (e : Error) :
    sim.Yields r (throw e : ExceptT Error Fresh α) (throw e : ExceptT Error Fresh β) :=
  fun _ _ hn => ⟨.error e, hn⟩

theorem Yields.bind {m : ExceptT Error Fresh α} {m' : ExceptT Error Fresh β}
    {f : α → ExceptT Error Fresh γ} {f' : β → ExceptT Error Fresh δ} (h : sim.Yields r m m')
    (hf : ∀ {a b}, r a b → sim.Yields q (f a) (f' b)) : sim.Yields q (m >>= f) (m' >>= f') := by
  intro n n' hn
  obtain ⟨hr, hk⟩ := h n n' hn
  rw [stateful_bind, stateful_bind]
  rcases hm : m n with ⟨a, k⟩
  rcases hm' : m' n' with ⟨b, k'⟩
  rw [hm, hm'] at hr hk
  cases hr with
  | ok hab => exact hf hab _ _ hk
  | error e => exact ⟨.error e, hk⟩

theorem yields_mapM {f : α → ExceptT Error Fresh γ} {f' : β → ExceptT Error Fresh δ}
    (hf : ∀ {a b}, r a b → sim.Yields q (f a) (f' b)) {xs : List α} {ys : List β}
    (h : List.Forall₂ r xs ys) :
    sim.Yields (List.Forall₂ q) (xs.mapM f) (ys.mapM f') := by
  induction h with
  | nil =>
    rw [List.mapM_nil, List.mapM_nil]
    exact yields_pure .nil
  | cons hab _ ih =>
    rw [List.mapM_cons, List.mapM_cons]
    exact (hf hab).bind fun hc => ih.bind fun hcs => yields_pure (.cons hc hcs)

/-! ## Built-in functions -/

theorem rel_argument {args args' : List Value} (h : List.Forall₂ sim.rel args args') (i : Nat) :
    sim.rel (argument args i) (argument args' i) := by
  induction h generalizing i with
  | nil => exact sim.refl _
  | cons hab _ ih =>
    cases i with
    | zero => exact hab
    | succ i => exact ih i

theorem forall₂_map_eq {f : Value → α} (hf : ∀ v, f v.contents = f v) {xs ys : List Value}
    (h : List.Forall₂ sim.rel xs ys) : xs.map f = ys.map f := by
  induction h with
  | nil => rfl
  | cons hab _ ih => rw [List.map_cons, List.map_cons, sim.view f hf hab, ih]

theorem respects_plain {f : List Value → Value}
    (hf : ∀ args args', List.Forall₂ sim.rel args args' → f args = f args') :
    sim.Respects (Builtin.plain f) := by
  intro args args' h
  unfold Builtin.plain
  rw [hf args args' h]
  exact yields_pure (sim.refl _)

/-- A plain function of something the contents of its first argument tell. -/
theorem respects_first (f : Value → α) (hf : ∀ v, f v.contents = f v) (g : α → Value) :
    sim.Respects (Builtin.plain fun args => g (f (argument args 0))) :=
  respects_plain fun _ _ h => congrArg g (sim.view f hf (rel_argument h 0))

theorem respects_foldNumbers (f : Float → Float → Float) (start : Float) :
    sim.Respects (Builtin.plain (Builtin.foldNumbers f start)) := by
  apply respects_plain
  intro args args' h
  unfold Builtin.foldNumbers
  rw [forall₂_map_eq Value.toNumber_contents h]

theorem respects_stringify : sim.Respects (Builtin.plain Builtin.stringify) := by
  apply respects_plain
  intro args args' h
  simp only [Builtin.stringify]
  rw [sim.view Value.truthy Value.truthy_contents (rel_argument h 2),
    sim.view (Json.pretty "") (Json.pretty_contents "") (rel_argument h 0),
    sim.view Json.compact Json.compact_contents (rel_argument h 0)]

theorem respects_parseInt : sim.Respects (Builtin.plain Builtin.parseInt) := by
  apply respects_plain
  intro args args' h
  unfold Builtin.parseInt Builtin.baseOf
  rw [sim.view Value.display Value.display_contents (rel_argument h 0),
    sim.view Value.toNumber Value.toNumber_contents (rel_argument h 1), h.length_eq]

/-- The entries that related values are read as are related, or both values have none. -/
theorem entriesOf_outcome (name : String) {a b : Value} (h : sim.rel a b) :
    Outcome (List.Forall₂ (EntryRel sim.rel)) (Builtin.entriesOf name a)
      (Builtin.entriesOf name b) := by
  rcases sim.shape h with ⟨rfl, hc⟩ | ⟨m, m', xs, ys, rfl, rfl, hi⟩ | ⟨m, m', xs, ys, rfl, rfl, he⟩
  · cases a with
    | list | map => cases hc
    | _ => exact .error _
  · refine .ok ?_
    have numbered : ∀ (k : Nat) {xs ys : List Value}, List.Forall₂ sim.rel xs ys →
        List.Forall₂ (EntryRel sim.rel)
          ((xs.zipIdx k).map fun p => (Decimal.natText p.2, p.1))
          ((ys.zipIdx k).map fun p => (Decimal.natText p.2, p.1)) := by
      intro k xs ys h
      induction h generalizing k with
      | nil => exact .nil
      | cons hab _ ih => exact .cons ⟨rfl, hab⟩ (ih (k + 1))
    exact numbered 0 hi
  · exact .ok he

theorem yields_lift {x : Except Error α} {y : Except Error β} (h : Outcome r x y) :
    sim.Yields r (liftM x : ExceptT Error Fresh α) (liftM y : ExceptT Error Fresh β) := by
  intro n n' hn
  cases h with
  | ok h => exact ⟨.ok h, hn⟩
  | error e => exact ⟨.error e, hn⟩

theorem respects_keys : sim.Respects Builtin.keys := by
  intro args args' h
  unfold Builtin.keys
  refine (yields_lift (entriesOf_outcome _ (rel_argument h 0))).bind fun he => ?_
  refine (makes_newList ?_).yields
  induction he with
  | nil => exact .nil
  | cons hef _ ih =>
    rw [List.map_cons, List.map_cons, hef.1]
    exact .cons (sim.refl _) ih

theorem respects_values : sim.Respects Builtin.values := by
  intro args args' h
  unfold Builtin.values
  have build : ∀ {a b : Value}, sim.rel a b → sim.Yields sim.rel
      (do let entries ← (Builtin.entriesOf "Object.values" a : Except Error _)
          Value.newList (entries.map (·.2)))
      (do let entries ← (Builtin.entriesOf "Object.values" b : Except Error _)
          Value.newList (entries.map (·.2))) := by
    intro a b hab
    refine (yields_lift (entriesOf_outcome _ hab)).bind fun he => ?_
    refine (makes_newList ?_).yields
    induction he with
    | nil => exact .nil
    | cons hef _ ih => exact .cons hef.2 ih
  have hab := rel_argument h 0
  rcases sim.shape hab with ⟨heq, hc⟩ | ⟨m, m', xs, ys, ha, hb, -⟩ | ⟨m, m', xs, ys, ha, hb, -⟩
  · rw [← heq]
    have := build (sim.refl (argument args 0))
    cases hv : argument args 0 with
    | list | map =>
      rw [hv] at hc
      cases hc
    | _ =>
      rw [hv] at this
      exact this
  · rw [ha, hb] at hab ⊢
    exact yields_pure hab
  · rw [ha, hb] at hab ⊢
    exact build hab

theorem respects_entries : sim.Respects Builtin.entries := by
  intro args args' h
  unfold Builtin.entries
  refine (yields_lift (entriesOf_outcome _ (rel_argument h 0))).bind fun he => ?_
  refine (yields_mapM ?_ he).bind fun hp => (makes_newList hp).yields
  intro e f hef
  rw [hef.1]
  exact (makes_newList (.cons (sim.refl _) (.cons hef.2 .nil))).yields

theorem builtinList_respects : ∀ e ∈ builtinList, sim.Respects e.2 := by
  have ofTruth := @respects_first sim _ Value.truthy Value.truthy_contents
  have ofNumber := @respects_first sim _ Value.toNumber Value.toNumber_contents
  have ofText := @respects_first sim _ Value.display Value.display_contents
  simp only [builtinList, List.forall_mem_cons, List.not_mem_nil, false_imp_iff, implies_true,
    and_true]
  refine ⟨respects_first _ Value.isList_contents .bool, ofTruth .bool, respects_stringify,
    ofNumber (.number ·.abs), ofNumber (.number ·.ceil), ofNumber (.number ·.floor),
    respects_foldNumbers _ _, respects_foldNumbers _ _,
    ofNumber fun x => .number (Builtin.roundHalfUp x), ofNumber .number, respects_entries,
    respects_keys, respects_values, ofText .text,
    ofText fun s => Builtin.encodeComponent [.text s], ofNumber (.bool ·.isNaN),
    ofText fun s => Builtin.parseFloat [.text s], respects_parseInt⟩

end Similarity

theorem Named.get?_insert {α : Type} {name n : String} {a x : α} :
    ∀ {table : Named α}, (table.insert name a).get? n = some x → x = a ∨ table.get? n = some x
  | [], h => by
    unfold Named.get? Named.insert at h
    rw [List.lookup_cons] at h
    split at h
    · exact .inl (by simpa using h.symm)
    · simp at h
  | (k, b) :: rest, h => by
    unfold Named.insert at h
    unfold Named.get? at h ⊢
    split at h
    · rename_i hk
      subst hk
      rw [List.lookup_cons] at h ⊢
      split at h
      · exact .inl (by simpa using h.symm)
      · exact .inr h
    · split at h
      · rw [List.lookup_cons] at h
        split at h
        · exact .inl (by simpa using h.symm)
        · exact .inr h
      · rw [List.lookup_cons] at h ⊢
        split at h
        · exact .inr h
        · exact Named.get?_insert h

/-- What holds of every entry of the list holds of every built-in function. -/
theorem builtins_forall {P : Function → Prop} (h : ∀ e ∈ builtinList, P e.2) {name : String}
    {f : Function} (hf : builtins.get? name = some f) : P f := by
  have fold : ∀ (fs : List (String × Function)) (init : Functions),
      (∀ e ∈ fs, P e.2) → (∀ n g, init.get? n = some g → P g) →
      ∀ n g, (fs.foldl (fun functions e => functions.insert e.1 e.2) init).get? n = some g →
        P g := by
    intro fs
    induction fs with
    | nil => exact fun init _ hi => hi
    | cons e fs ih =>
      intro init hfs hi n g hg
      refine ih _ (fun e he => hfs e (List.mem_cons_of_mem _ he)) ?_ n g hg
      intro n g hg
      rcases Named.get?_insert hg with rfl | hg
      · exact hfs e (List.mem_cons_self ..)
      · exact hi n g hg
  exact fold builtinList .empty h (fun n g hg => by cases hg) name f hf

/-- Every built-in function tells nothing of identities. -/
theorem Similarity.builtins_respect {sim : Similarity} {name : String} {f : Function}
    (h : builtins.get? name = some f) : sim.Respects f :=
  builtins_forall builtinList_respects h

namespace Similarity

open Value

variable {sim : Similarity}

/-! ## Methods of values -/

theorem sliceList_congr {args args' : List Value} {α : Type} (items : List α)
    (h : List.Forall₂ sim.rel args args') : sliceList items args = sliceList items args' := by
  simp only [sliceList, slicePosition]
  rw [sim.view isNull isNull_contents (rel_argument h 0),
    sim.view isNull isNull_contents (rel_argument h 1),
    sim.view toNumber toNumber_contents (rel_argument h 0),
    sim.view toNumber toNumber_contents (rel_argument h 1)]

theorem forall₂_sliceList {args : List Value} {xs ys : List Value}
    (h : List.Forall₂ sim.rel xs ys) :
    List.Forall₂ sim.rel (sliceList xs args) (sliceList ys args) := by
  unfold sliceList
  rw [h.length_eq]
  exact List.forall₂_drop _ (List.forall₂_take _ h)

theorem strictEq_congr {a b a' b' : Value} (h : sim.rel a b) (h' : sim.rel a' b')
    (hs : a.same a' = b.same b') : a.strictEq a' = b.strictEq b' := by
  rcases sim.shape h with ⟨rfl, -⟩ | ⟨m, m', xs, ys, rfl, rfl, -⟩ | ⟨m, m', xs, ys, rfl, rfl, -⟩
  · rcases sim.shape h' with ⟨rfl, -⟩ | ⟨m, m', xs, ys, rfl, rfl, -⟩ | ⟨m, m', xs, ys, rfl, rfl, -⟩
    · rfl
    · cases a <;> exact hs
    · cases a <;> exact hs
  · rcases sim.shape h' with ⟨rfl, -⟩ | ⟨k, k', us, vs, rfl, rfl, -⟩ | ⟨k, k', us, vs, rfl, rfl, -⟩
    · cases a' <;> exact hs
    · exact hs
    · exact hs
  · rcases sim.shape h' with ⟨rfl, -⟩ | ⟨k, k', us, vs, rfl, rfl, -⟩ | ⟨k, k', us, vs, rfl, rfl, -⟩
    · cases a' <;> exact hs
    · exact hs
    · exact hs

theorem textMethod_makes (s name : String) {args args' : List Value}
    (h : List.Forall₂ sim.rel args args') :
    Option.Rel (sim.Makes sim.rel) (textMethod s name args) (textMethod s name args') := by
  simp only [textMethod, splitText]
  rw [sim.view display display_contents (rel_argument h 0),
    sim.view isNull isNull_contents (rel_argument h 0),
    sim.view display display_contents (rel_argument h 1), sliceList_congr s.toList h]
  split <;> first
    | exact .none
    | exact .some (makes_pure (sim.refl _))
    | exact .some (makes_newList (List.forall₂_same.2 fun v _ => sim.refl v))

/-- The search for a value in a list finds the same positions in related lists. -/
theorem strictEq_items (hk : sim.KeepsIdentity) {v w : Value} (h : sim.rel v w)
    {xs ys : List Value} (hi : List.Forall₂ sim.rel xs ys) :
    xs.map (·.strictEq v) = ys.map (·.strictEq w) := by
  induction hi with
  | nil => rfl
  | cons hab _ ih =>
    rw [List.map_cons, List.map_cons, strictEq_congr hab h (hk hab h), ih]

theorem listMethod_makes (name : String)
    (hk : sim.KeepsIdentity ∨ name ≠ "includes" ∧ name ≠ "indexOf") {xs ys : List Value}
    (hi : List.Forall₂ sim.rel xs ys) {args args' : List Value}
    (h : List.Forall₂ sim.rel args args') :
    Option.Rel (sim.Makes sim.rel) (listMethod xs name args) (listMethod ys name args') := by
  simp only [listMethod]
  rw [sliceList_congr xs h, sim.view isNull isNull_contents (rel_argument h 0),
    sim.view display display_contents (rel_argument h 0), forall₂_map_eq display_contents hi]
  split
  · obtain hk | hk := hk
    · have := congrArg (·.any id) (strictEq_items hk (rel_argument h 0) hi)
      simp only [List.any_map, Function.comp_def, id] at this
      simp only [this]
      exact .some (makes_pure (sim.refl _))
    · exact absurd rfl hk.1
  · obtain hk | hk := hk
    · have := congrArg (·.findIdx? id) (strictEq_items hk (rel_argument h 0) hi)
      simp only [List.findIdx?_map, Function.comp_def, id] at this
      simp only [this]
      exact .some (makes_pure (sim.refl _))
    · exact absurd rfl hk.2
  · exact .some (makes_pure (sim.refl _))
  · exact .some (makes_newList (forall₂_sliceList hi))
  · exact .none

/-- A method that a value has by its kind, or what it does else. -/
theorem yields_special {other other' : ExceptT Error Fresh Value}
    (ho : sim.Yields sim.rel other other') {x y : Option (Fresh Value)} :
    Option.Rel (sim.Makes sim.rel) x y → sim.Yields sim.rel
      (match x with
        | some make => (make : Fresh Value)
        | none => other)
      (match y with
        | some make => (make : Fresh Value)
        | none => other') := by
  intro h
  cases h with
  | some hm => exact hm.yields
  | none => exact ho

/-- A method of related values gives related results for related arguments, provided that it does
not look for a value in a list or that the two runs agree on identities. -/
theorem callMethod_yields (name : String)
    (hk : sim.KeepsIdentity ∨ name ≠ "includes" ∧ name ≠ "indexOf") {v w : Value}
    (hv : sim.rel v w) {args args' : List Value} (h : List.Forall₂ sim.rel args args') :
    sim.Yields sim.rel (v.callMethod name args) (w.callMethod name args') := by
  -- what a value does that has no method of this name by its kind
  have other : sim.Yields sim.rel
      (if name = "toString" then return .text v.display
        else throw (.bare (.unknownValueMethod name v.kindName)) : ExceptT Error Fresh Value)
      (if name = "toString" then return .text w.display
        else throw (.bare (.unknownValueMethod name w.kindName))) := by
    rw [sim.view display display_contents hv, sim.view kindName kindName_contents hv]
    split
    · exact yields_pure (sim.refl _)
    · exact yields_throw _
  unfold Value.callMethod
  refine yields_special other ?_
  rcases sim.shape hv with ⟨rfl, hc⟩ | ⟨m, m', xs, ys, rfl, rfl, hi⟩ | ⟨m, m', xs, ys, rfl, rfl, -⟩
  · cases v with
    | text s => exact textMethod_makes s name h
    | int | float =>
      simp only [toFixed]
      rw [sim.view toNumber toNumber_contents (rel_argument h 0)]
      split
      · exact .some (makes_pure (sim.refl _))
      · exact .none
    | list | map => cases hc
    | null | bool => exact .none
  · exact listMethod_makes name hk hi h
  · exact .none

end Similarity

end LiveTemplate
