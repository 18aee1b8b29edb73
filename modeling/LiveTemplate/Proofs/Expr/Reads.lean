/-
What the reads of an expression mean. The names of a set are those that were put into it, the
reads of an expression hold those of its parts, and two states agree on reads when each field
read is missing in both or holds related values in both.
-/
import LiveTemplate.Expr.Reads
import LiveTemplate.Proofs.Value.Similarity
import LiveTemplate.State

namespace LiveTemplate

/-! ## Sets of names, and tables by name -/

namespace Names

theorem mem_insert {a n : String} : ∀ {names : Names}, a ∈ names.insert n ↔ a = n ∨ a ∈ names
  | [] => by simp [insert]
  | m :: rest => by
    unfold insert
    split
    · subst_vars
      simp
    · split
      · simp
      · rw [List.mem_cons, List.mem_cons, mem_insert]
        tauto

theorem mem_union {a : String} {left right : Names} :
    a ∈ left.union right ↔ a ∈ left ∨ a ∈ right := by
  unfold union
  induction right generalizing left with
  | nil => simp
  | cons n right ih =>
    rw [List.foldl_cons, ih, mem_insert, List.mem_cons]
    tauto

end Names

theorem lookup_cons_if {α : Type} {key : String} (k : String) (x : α) (rest : List (String × α)) :
    ((k, x) :: rest).lookup key = if key = k then some x else rest.lookup key := by
  rw [List.lookup_cons]
  by_cases h : key = k
  · rw [if_pos h, beq_iff_eq.2 h]
  · rw [if_neg h, beq_eq_false_iff_ne.2 h]

/-! ## Expressions inside an expression -/

mutual

/-- An expression and all expressions inside it. -/
def Expr.subterms : Expr → List Expr
  | .literal s v => [.literal s v]
  | .name s n => [.name s n]
  | .self s => [.self s]
  | .root s r => [.root s r]
  | .template s parts => .template s parts :: subtermsParts parts
  | .member s o p q => .member s o p q :: o.subterms
  | .index s o i q => .index s o i q :: (o.subterms ++ i.subterms)
  | .call s callee args => .call s callee args :: (callee.subterms ++ subtermsAll args)
  | .method s n args => .method s n args :: subtermsAll args
  | .function s n args => .function s n args :: subtermsAll args
  | .unary s op e => .unary s op e :: e.subterms
  | .binary s op l r => .binary s op l r :: (l.subterms ++ r.subterms)
  | .conditional s c t e =>
    .conditional s c t e :: (c.subterms ++ (t.subterms ++ e.subterms))
  | .array s items => .array s items :: subtermsAll items
  | .object s entries => .object s entries :: subtermsEntries entries
  | .arrow s params body => .arrow s params body :: body.subterms

def subtermsAll : List Expr → List Expr
  | [] => []
  | e :: rest => e.subterms ++ subtermsAll rest

def subtermsEntries : List (String × Expr) → List Expr
  | [] => []
  | (_, e) :: rest => e.subterms ++ subtermsEntries rest

def subtermsParts : List TemplatePart → List Expr
  | [] => []
  | .text _ :: rest => subtermsParts rest
  | .hole e :: rest => e.subterms ++ subtermsParts rest

end

theorem Expr.mem_subterms_self (e : Expr) : e ∈ e.subterms := by
  cases e <;> simp [subterms]

/-! ## Agreement -/

/-- Two states agree on reads: each field read is missing in both or holds related values, and
the states as a whole are related if they are read as a whole. -/
structure State.AgreeOn (sim : Similarity) (reads : Reads) (s s' : State) : Prop where
  fields : ∀ f ∈ reads.fields, Option.Rel sim.rel (s.entries.get? f) (s'.entries.get? f)
  whole : reads.any = true → sim.rel s.value s'.value

namespace State.AgreeOn

variable {sim : Similarity} {a b : Reads} {s s' : State}

theorem left (h : AgreeOn sim (a.union b) s s') : AgreeOn sim a s s' :=
  ⟨fun f hf => h.fields f (Names.mem_union.2 (.inl hf)),
    fun ha => h.whole (by simp [Reads.union, ha])⟩

theorem right (h : AgreeOn sim (a.union b) s s') : AgreeOn sim b s s' :=
  ⟨fun f hf => h.fields f (Names.mem_union.2 (.inr hf)),
    fun hb => h.whole (by simp [Reads.union, hb])⟩

end State.AgreeOn

/-! ## Special cases of the reads -/

namespace Expr

/-- Whether an expression is the state itself. -/
def isState : Expr → Bool
  | .root _ .state => true
  | _ => false

/-- The key that an index into the state has as a literal. -/
def literalKey? : Expr → Option String
  | .literal _ (.text key) => some key
  | .literal _ (.int i) => some (Decimal.intText i.toInt)
  | _ => none

theorem isState_iff {o : Expr} : o.isState = true ↔ ∃ t, o = .root t .state := by
  constructor
  · intro h
    unfold isState at h
    split at h
    · exact ⟨_, rfl⟩
    · cases h
  · rintro ⟨t, rfl⟩
    rfl

theorem reads_member {s : Span} {o : Expr} {p : String} {q : Bool} (h : o.isState = false) :
    (Expr.member s o p q).reads = o.reads := by
  rw [reads]
  rintro t rfl
  cases h

theorem reads_index {s : Span} {o i : Expr} {q : Bool}
    (h : o.isState = false ∨ i.literalKey? = none) :
    (Expr.index s o i q).reads = o.reads.union i.reads := by
  rw [reads]
  · rintro t u key rfl rfl
    rcases h with h | h <;> cases h
  · rintro t u n rfl rfl
    rcases h with h | h <;> cases h

end Expr

end LiveTemplate
