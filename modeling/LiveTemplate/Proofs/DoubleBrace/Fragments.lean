/-
Fragments of the older dialect. A source is read as the texts between its declarations and the
declared bodies, and a text as what stands between its references. Expansion follows the references
with the names it is in on a stack, so it ends on every source: a body is entered at most once below
itself, and there are only as many names as declarations. It succeeds on exactly those templates
whose reached references are closed, declared and acyclic, and gives the texts with each reference
replaced by the body of its last declaration, which is expanded itself.
-/
import LiveTemplate.Proofs.DoubleBrace.Passes
import LiveTemplate.Proofs.Location.Regions

namespace LiveTemplate.DoubleBrace

open Text Relation

variable {p cs before after head inside rest : List Char}

/-! ## First occurrences -/

/-- A text with the first occurrence of a pattern between `before` and `after`. -/
structure First (p cs before after : List Char) : Prop where
  eq : cs = before ++ p ++ after
  least : ∀ a b, cs = a ++ p ++ b → before.length ≤ a.length

theorem First.unique {before' after' : List Char} (h : First p cs before after)
    (h' : First p cs before' after') : before = before' ∧ after = after' := by
  have length : before.length = before'.length :=
    le_antisymm (h.least _ _ h'.eq) (h'.least _ _ h.eq)
  have eq : before ++ (p ++ after) = before' ++ (p ++ after') := by
    rw [← List.append_assoc, ← List.append_assoc, ← h.eq, ← h'.eq]
  obtain ⟨same, others⟩ := List.append_inj eq length
  exact ⟨same, List.append_cancel_left others⟩

theorem First.found (h : First p cs before after) : p <:+: cs :=
  ⟨before, after, h.eq.symm⟩

theorem First.length (h : First p cs before after) :
    cs.length = before.length + p.length + after.length := by
  rw [h.eq, List.length_append, List.length_append]

theorem splitAt?_eq (h : splitAt? p cs = some (before, after)) : cs = before ++ p ++ after := by
  induction cs generalizing before with
  | nil =>
    rw [splitAt?] at h
    split at h
    · rename_i empty
      cases h
      simpa using empty
    · cases h
  | cons c cs ih =>
    rw [splitAt?] at h
    split at h
    · rename_i starts
      cases h
      exact (List.prefix_iff_eq_append.1 (List.isPrefixOf_iff_prefix.1 starts)).symm
    · obtain ⟨⟨before', after'⟩, found, eq⟩ := Option.map_eq_some_iff.1 h
      cases eq
      rw [ih found]
      rfl

theorem first_of_splitAt? (h : splitAt? p cs = some (before, after)) : First p cs before after := by
  refine ⟨splitAt?_eq h, ?_⟩
  rintro a b rfl
  obtain ⟨before', after', found, le⟩ := splitAt?_append p a b
  rw [h] at found
  cases found
  exact le

theorem splitRegion?_eq_none_iff {r : Region} : splitRegion? p r = none ↔ ¬ p <:+: r.text := by
  rw [splitRegion?, Option.map_eq_none_iff, splitAt?_eq_none_iff]

theorem first_of_splitRegion? {r a b : Region} (h : splitRegion? p r = some (a, b)) :
    First p r.text a.text b.text := by
  obtain ⟨⟨before, after⟩, found, eq⟩ := Option.map_eq_some_iff.1 h
  cases eq
  have first := first_of_splitAt? found
  have shown : (r.take before.length).text = before := by
    show r.text.take before.length = before
    rw [first.eq, List.append_assoc, List.take_left]
  have left : (r.drop (before.length + p.length)).text = after := by
    show r.text.drop (before.length + p.length) = after
    rw [first.eq, ← List.length_append, List.drop_left]
  rw [shown, left]
  exact first

theorem First.split {r : Region} (h : First p r.text before after) :
    ∃ a b, splitRegion? p r = some (a, b) ∧ a.text = before ∧ b.text = after := by
  cases hs : splitRegion? p r with
  | none => exact absurd h.found (splitRegion?_eq_none_iff.1 hs)
  | some pieces =>
    obtain ⟨a, b⟩ := pieces
    obtain ⟨hb, ha⟩ := (first_of_splitRegion? hs).unique h
    exact ⟨a, b, rfl, hb, ha⟩

/-! ## Declarations -/

/-- The name that is written between two brackets. -/
def title (inside : List Char) : String := String.ofList (trim inside)

theorem toString_trim (r : Region) : r.trim.toString = title r.text := by
  show String.ofList (trimEnd (r.dropWhile isBlank).text) = title r.text
  rw [Region.dropWhile_text]
  rfl

/-- The texts of a source between its declarations, and the declared bodies under their names, in
their order. -/
inductive Declares : List Char → List (List Char) → List (String × List Char) → Prop where
  | last {cs : List Char} (plain : ¬ blockOpen <:+: cs) : Declares cs [cs] []
  | block {cs before head inside tail body rest : List Char} {main : List (List Char)}
    {fragments : List (String × List Char)} (opens : First blockOpen cs before head)
    (titled : First tagClose head inside tail) (named : title inside ≠ "")
    (closes : First blockClose tail body rest) (others : Declares rest main fragments) :
    Declares cs (before :: main) ((title inside, body) :: fragments)

/-- The body of the last declaration of a name. -/
def Latest (fragments : List (String × List Char)) (name : String) (body : List Char) : Prop :=
  ∃ earlier later, fragments = earlier ++ (name, body) :: later ∧ ∀ other, (name, other) ∉ later

/-- What a name stands for in a list of declarations that is searched from its start. -/
def Named (declared : List (String × Region)) (name : String) (body : List Char) : Prop :=
  ∃ r, declared.lookup name = some r ∧ r.text = body

theorem named_unique (declared : List (String × Region)) (name : String) (a b : List Char)
    (ha : Named declared name a) (hb : Named declared name b) : a = b := by
  obtain ⟨r, found, rfl⟩ := ha
  obtain ⟨r', found', rfl⟩ := hb
  cases found.symm.trans found'
  rfl

theorem lookup_reverse_iff {fragments : List (String × List Char)} {name : String}
    {body : List Char} :
    fragments.reverse.lookup name = some body ↔ Latest fragments name body := by
  rw [List.lookup_eq_some_iff]
  constructor
  · rintro ⟨later, earlier, eq, others⟩
    refine ⟨earlier.reverse, later.reverse, ?_, ?_⟩
    · rw [← List.reverse_reverse fragments, eq]
      simp
    · intro other mem
      simpa using others _ (List.mem_reverse.1 mem)
  · rintro ⟨earlier, later, rfl, others⟩
    refine ⟨later.reverse, earlier.reverse, by simp, ?_⟩
    rintro ⟨title, other⟩ mem
    rw [bne_iff_ne]
    rintro rfl
    exact others other (List.mem_reverse.1 mem)

theorem lookup_map_text (declared : List (String × Region)) (name : String) :
    (declared.map (Prod.map id Region.text)).lookup name =
      (declared.lookup name).map Region.text := by
  induction declared with
  | nil => rfl
  | cons first declared ih =>
    obtain ⟨title, body⟩ := first
    rw [List.map_cons, Prod.map_apply, List.lookup_cons, List.lookup_cons, ih, id]
    cases name == title <;> rfl

theorem declaration_shorter {tail body : List Char} (opens : First blockOpen cs before head)
    (titled : First tagClose head inside tail) (closes : First blockClose tail body rest) :
    rest.length < cs.length := by
  have := opens.length
  have := titled.length
  have := closes.length
  have : 0 < blockOpen.length := by decide
  omega

theorem Declares.collect {main : List (List Char)} {fragments : List (String × List Char)}
    (h : Declares cs main fragments) {fuel : Nat} {r : Region} (text : r.text = cs)
    (enough : cs.length ≤ fuel) :
    ∃ f, collect fuel r = .ok f ∧ f.main.map Region.text = main ∧
      f.declared.map (Prod.map id Region.text) = fragments.reverse := by
  induction h generalizing fuel r with
  | last plain =>
    subst text
    exact ⟨⟨[r], []⟩, collect_of_free fuel plain, rfl, rfl⟩
  | @block cs before head inside tail body rest main fragments opens titled named closes _ ih =>
    subst text
    obtain ⟨a, b, splitOpen, rfl, rfl⟩ := opens.split
    obtain ⟨n, t, splitTitle, rfl, rfl⟩ := titled.split
    obtain ⟨i, e, splitClose, rfl, rfl⟩ := closes.split
    have shorter := (declaration_shorter opens titled closes).trans_le enough
    obtain _ | fuel := fuel
    · cases shorter
    · obtain ⟨f, collected, texts, declared⟩ := ih rfl (Nat.le_of_lt_succ shorter)
      refine ⟨⟨a :: f.main, f.declared ++ [(title n.text, i)]⟩, ?_, ?_, ?_⟩
      · have named : (title n.text).isEmpty = false := by
          rw [← Bool.not_eq_true, String.isEmpty_iff]
          exact named
        simp only [DoubleBrace.collect, splitOpen, splitTitle, splitClose, toString_trim, named,
          collected]
        rfl
      · simp [texts]
      · simp [declared]

/-- What was collected stands for the last declarations. -/
theorem named_iff {declared : List (String × Region)} {fragments : List (String × List Char)}
    (h : declared.map (Prod.map id Region.text) = fragments.reverse) :
    Named declared = Latest fragments := by
  funext name body
  rw [← lookup_reverse_iff, ← h, lookup_map_text, Option.map_eq_some_iff]
  rfl

theorem declares_of_collect {fuel : Nat} {r : Region} {f : Fragments}
    (enough : r.text.length ≤ fuel) (h : DoubleBrace.collect fuel r = .ok f) :
    Declares r.text (f.main.map Region.text)
      (f.declared.map (Prod.map id Region.text)).reverse := by
  induction fuel generalizing r f with
  | zero =>
    have empty := List.length_eq_zero_iff.1 (Nat.le_zero.1 enough)
    cases h
    exact .last (by rw [empty]; decide)
  | succ fuel ih =>
    rw [DoubleBrace.collect] at h
    split at h
    · rename_i none
      cases h
      exact .last (splitRegion?_eq_none_iff.1 none)
    · rename_i before head opens
      split at h
      · cases h
      · rename_i name tail titled
        dsimp only at h
        split at h
        · cases h
        · rename_i named
          rw [toString_trim, String.isEmpty_iff] at named
          split at h
          · cases h
          · rename_i body rest closes
            obtain ⟨others, collected, eq⟩ := results_of_bind h
            cases eq
            have opens := first_of_splitRegion? opens
            have titled := first_of_splitRegion? titled
            have closes := first_of_splitRegion? closes
            have shorter := (declaration_shorter opens titled closes).trans_le enough
            rw [List.map_append, List.reverse_append, toString_trim]
            exact .block opens titled named closes (ih (Nat.le_of_lt_succ shorter) collected)

/-! ## References -/

/-- The first reference of a text: what stands before it, its name, and what follows. -/
def Reference (cs before : List Char) (name : String) (rest : List Char) : Prop :=
  ∃ head inside, First referenceOpen cs before head ∧ First tagClose head inside rest ∧
    name = title inside

theorem Reference.unique {before' rest' : List Char} {name name' : String}
    (h : Reference cs before name rest) (h' : Reference cs before' name' rest') :
    before = before' ∧ name = name' ∧ rest = rest' := by
  obtain ⟨head, inside, opens, closes, rfl⟩ := h
  obtain ⟨head', inside', opens', closes', rfl⟩ := h'
  obtain ⟨rfl, rfl⟩ := opens.unique opens'
  obtain ⟨rfl, rfl⟩ := closes.unique closes'
  exact ⟨rfl, rfl, rfl⟩

/-- The names that a text refers to. -/
inductive Mentions : List Char → String → Prop where
  | first {cs before rest : List Char} {name : String} (first : Reference cs before name rest) :
    Mentions cs name
  | later {cs before rest : List Char} {name other : String}
    (first : Reference cs before other rest) (h : Mentions rest name) : Mentions cs name

/-- One of the references of a text has no end. -/
inductive Broken : List Char → Prop where
  | first {cs before head : List Char} (opens : First referenceOpen cs before head)
    (never : ¬ tagClose <:+: head) : Broken cs
  | later {cs before rest : List Char} {name : String} (first : Reference cs before name rest)
    (h : Broken rest) : Broken cs

theorem Mentions.found {name : String} (h : Mentions cs name) : referenceOpen <:+: cs := by
  cases h with
  | first first | later first _ =>
    obtain ⟨head, inside, opens, -⟩ := first
    exact opens.found

theorem Broken.found (h : Broken cs) : referenceOpen <:+: cs := by
  cases h with
  | first opens _ => exact opens.found
  | later first _ =>
    obtain ⟨head, inside, opens, -⟩ := first
    exact opens.found

theorem Reference.mentions_iff {name other : String} (first : Reference cs before name rest) :
    Mentions cs other ↔ other = name ∨ Mentions rest other := by
  constructor
  · intro h
    cases h with
    | first first' => exact .inl (first'.unique first).2.1
    | later first' h =>
      rw [(first'.unique first).2.2] at h
      exact .inr h
  · rintro (rfl | h)
    · exact .first first
    · exact .later first h

theorem Reference.broken_iff {name : String} (first : Reference cs before name rest) :
    Broken cs ↔ Broken rest := by
  constructor
  · intro h
    cases h with
    | first opens never =>
      obtain ⟨head, inside, opens', closes, -⟩ := first
      rw [(opens.unique opens').2] at never
      exact absurd closes.found never
    | later first' h =>
      rw [(first'.unique first).2.2] at h
      exact h
  · exact .later first

section Meaning

-- which body a name stands for
variable (Body : String → List Char → Prop)

/-- The body of one fragment refers to the other one. -/
def Leads (a b : String) : Prop := ∃ body, Body a body ∧ Mentions body b

/-- The texts of a template and the bodies of what they refer to, of what these refer to, and so
on. -/
inductive Reached (main : List (List Char)) : List Char → Prop where
  | main {cs : List Char} (mem : cs ∈ main) : Reached main cs
  | body {cs body : List Char} {name : String} (h : Reached main cs) (mention : Mentions cs name)
    (declared : Body name body) : Reached main body

/-- Every reference that is reached has an end and a body, and does not lead back to itself. -/
structure Sound (main : List (List Char)) : Prop where
  closed : ∀ cs, Reached Body main cs → ¬ Broken cs
  declared : ∀ cs name, Reached Body main cs → Mentions cs name → ∃ body, Body name body
  acyclic : ∀ cs name, Reached Body main cs → Mentions cs name → ¬ TransGen (Leads Body) name name

/-- A text with every reference replaced by the body it stands for, in which this is done as well.
All else is copied. -/
inductive Expands : List Char → List Char → Prop where
  | last {cs : List Char} (plain : ¬ referenceOpen <:+: cs) : Expands cs cs
  | reference {cs before rest body shown out : List Char} {name : String}
    (first : Reference cs before name rest) (declared : Body name body) (inner : Expands body shown)
    (others : Expands rest out) : Expands cs (before ++ shown ++ out)

/-- The texts of a template one after the other, with their references replaced. -/
def Fills (main : List (List Char)) (out : List Char) : Prop :=
  ∃ outs, List.Forall₂ (Expands Body) main outs ∧ out = outs.flatten

variable {Body}

theorem Expands.closed {out : List Char} (h : Expands Body cs out) : ¬ Broken cs := by
  induction h with
  | last plain => exact fun broken => plain broken.found
  | reference first _ _ _ _ others =>
    rw [first.broken_iff]
    exact others

theorem Expands.declared {out : List Char} (h : Expands Body cs out) {name : String}
    (mention : Mentions cs name) : ∃ body shown, Body name body ∧ Expands Body body shown := by
  induction h with
  | last plain => exact absurd mention.found plain
  | reference first declared inner _ _ others =>
    obtain rfl | mention := first.mentions_iff.1 mention
    · exact ⟨_, _, declared, inner⟩
    · exact others mention

theorem Expands.unique (functional : ∀ name a b, Body name a → Body name b → a = b)
    {out out' : List Char} (h : Expands Body cs out) (h' : Expands Body cs out') : out = out' := by
  induction h generalizing out' with
  | last plain =>
    cases h' with
    | last _ => rfl
    | reference first _ _ _ =>
      exact absurd (Mentions.first first).found plain
  | reference first declared _ _ inner others =>
    cases h' with
    | last plain => exact absurd (Mentions.first first).found plain
    | reference first' declared' inner' others' =>
      obtain ⟨rfl, rfl, rfl⟩ := first.unique first'
      obtain rfl := functional _ _ _ declared declared'
      rw [inner inner', others others']

theorem Fills.unique (functional : ∀ name a b, Body name a → Body name b → a = b)
    {main : List (List Char)} {out out' : List Char} (h : Fills Body main out)
    (h' : Fills Body main out') : out = out' := by
  obtain ⟨outs, filled, rfl⟩ := h
  obtain ⟨outs', filled', rfl⟩ := h'
  have one : Relator.RightUnique (Expands Body) := fun _ _ _ => Expands.unique functional
  rw [one.forall₂ filled filled']

/-- Below the references of a text that expands no chain of references goes on without end. -/
theorem Expands.acc (functional : ∀ name a b, Body name a → Body name b → a = b)
    {out : List Char} (h : Expands Body cs out) {name : String} (mention : Mentions cs name) :
    Acc (Function.swap (Leads Body)) name := by
  induction h generalizing name with
  | last plain => exact absurd mention.found plain
  | reference first declared _ _ inner others =>
    obtain rfl | mention := first.mentions_iff.1 mention
    · refine ⟨_, ?_⟩
      rintro next ⟨body, declared', mention⟩
      obtain rfl := functional _ _ _ declared declared'
      exact inner mention
    · exact others mention

theorem not_rel_of_acc {α : Type} {r : α → α → Prop} {a : α} (h : Acc r a) : ¬ r a a := by
  induction h with
  | intro a _ ih => exact fun self => ih a self self

theorem expands_of_mem {main outs : List (List Char)} (h : List.Forall₂ (Expands Body) main outs)
    (mem : cs ∈ main) : ∃ out, Expands Body cs out := by
  induction h with
  | nil => cases mem
  | cons expands _ ih =>
    obtain _ | ⟨_, mem⟩ := mem
    · exact ⟨_, expands⟩
    · exact ih mem

/-- A template that can be expanded is sound. -/
theorem Fills.sound (functional : ∀ name a b, Body name a → Body name b → a = b)
    {main : List (List Char)} {out : List Char} (h : Fills Body main out) : Sound Body main := by
  obtain ⟨outs, filled, -⟩ := h
  have expands {cs : List Char} (reached : Reached Body main cs) : ∃ out, Expands Body cs out := by
    induction reached with
    | main mem => exact expands_of_mem filled mem
    | body _ mention declared ih =>
      obtain ⟨out, expands⟩ := ih
      obtain ⟨body, shown, declared', inner⟩ := expands.declared mention
      rw [functional _ _ _ declared declared']
      exact ⟨shown, inner⟩
  refine ⟨?_, ?_, ?_⟩
  · intro cs reached
    obtain ⟨out, expands⟩ := expands reached
    exact expands.closed
  · intro cs name reached mention
    obtain ⟨out, expands⟩ := expands reached
    obtain ⟨body, -, declared, -⟩ := expands.declared mention
    exact ⟨body, declared⟩
  · intro cs name reached mention cycle
    obtain ⟨out, expands⟩ := expands reached
    exact not_rel_of_acc (expands.acc functional mention).transGen (transGen_swap.2 cycle)

end Meaning

/-! ## Runs -/

/-- The first reference of a region, with the place it takes. -/
def ReferenceAt (r before : Region) (name : String) (span : Span) (rest : Region) : Prop :=
  ∃ head inside, splitRegion? referenceOpen r = some (before, head) ∧
    splitRegion? tagClose head = some (inside, rest) ∧ name = title inside.text ∧
    span = ⟨before.stop, rest.start⟩

/-- Expansion below a stack of names, without a bound on its depth. The text behind a reference is
expanded whatever its body gave; the first error is the one of the whole. -/
inductive Runs (declared : List (String × Region)) :
    List String → Region → Except Fault (List Char) → Prop where
  | last {stack : List String} {r : Region} (plain : splitRegion? referenceOpen r = none) :
    Runs declared stack r (.ok r.text)
  | unclosed {stack : List String} {r before head : Region}
    (opens : splitRegion? referenceOpen r = some (before, head))
    (never : splitRegion? tagClose head = none) :
    Runs declared stack r (.error ⟨.unclosedReference, before.stop, head.start⟩)
  | unknown {stack : List String} {r before rest : Region} {name : String} {span : Span}
    (first : ReferenceAt r before name span rest) (unknown : declared.lookup name = none) :
    Runs declared stack r (.error ⟨.unknownFragment name, span⟩)
  | cyclic {stack : List String} {r before rest body : Region} {name : String} {span : Span}
    (first : ReferenceAt r before name span rest) (found : declared.lookup name = some body)
    (again : name ∈ stack) : Runs declared stack r (.error ⟨.cyclicFragment name, span⟩)
  | entered {stack : List String} {r before rest body : Region} {name : String} {span : Span}
    {shown out : Except Fault (List Char)} (first : ReferenceAt r before name span rest)
    (found : declared.lookup name = some body) (fresh : name ∉ stack)
    (inner : Runs declared (name :: stack) body shown) (others : Runs declared stack rest out) :
    Runs declared stack r (do
      let body ← shown
      let others ← out
      .ok (before.text ++ body ++ others))

theorem ReferenceAt.first {r a rest : Region} {name : String} {span : Span}
    (h : ReferenceAt r a name span rest) : Reference r.text a.text name rest.text := by
  obtain ⟨head, inside, opens, closes, rfl, -⟩ := h
  exact ⟨head.text, inside.text, first_of_splitRegion? opens, first_of_splitRegion? closes, rfl⟩

theorem ReferenceAt.unique {r before rest before' rest' : Region} {name name' : String}
    {span span' : Span} (h : ReferenceAt r before name span rest)
    (h' : ReferenceAt r before' name' span' rest') :
    before = before' ∧ name = name' ∧ span = span' ∧ rest = rest' := by
  obtain ⟨head, inside, opens, closes, rfl, rfl⟩ := h
  obtain ⟨head', inside', opens', closes', rfl, rfl⟩ := h'
  rw [opens] at opens'
  cases opens'
  rw [closes] at closes'
  cases closes'
  exact ⟨rfl, rfl, rfl, rfl⟩

section Declared

variable {declared : List (String × Region)} {stack : List String} {r : Region}

theorem ReferenceAt.opens {before rest : Region} {name : String} {span : Span}
    (first : ReferenceAt r before name span rest) : splitRegion? referenceOpen r ≠ none := by
  obtain ⟨head, inside, opens, -⟩ := first
  rw [opens]
  exact nofun

theorem ReferenceAt.closes {before before' head rest : Region} {name : String} {span : Span}
    (first : ReferenceAt r before name span rest)
    (opens : splitRegion? referenceOpen r = some (before', head)) :
    splitRegion? tagClose head ≠ none := by
  obtain ⟨head', inside, opens', closes, -⟩ := first
  rw [opens] at opens'
  cases opens'
  rw [closes]
  exact nofun

/-- A run gives one result. -/
theorem Runs.unique {result result' : Except Fault (List Char)} (h : Runs declared stack r result)
    (h' : Runs declared stack r result') : result = result' := by
  -- A text has at most one first reference, so two rules with one must be the same rule.
  induction h generalizing result' with
  | last plain =>
    cases h' with
    | last _ => rfl
    | unclosed opens _ => cases plain.symm.trans opens
    | unknown first _ | cyclic first _ _ | entered first _ _ _ _ => exact absurd plain first.opens
  | unclosed opens never =>
    cases h' with
    | last plain => cases plain.symm.trans opens
    | unclosed opens' _ =>
      cases opens.symm.trans opens'
      rfl
    | unknown first _ | cyclic first _ _ | entered first _ _ _ _ =>
      exact absurd never (first.closes opens)
  | unknown first unknown =>
    cases h' with
    | last plain => exact absurd plain first.opens
    | unclosed opens never => exact absurd never (first.closes opens)
    | unknown first' _ =>
      obtain ⟨rfl, rfl, rfl, rfl⟩ := first.unique first'
      rfl
    | cyclic first' found _ | entered first' found _ _ _ =>
      obtain ⟨rfl, rfl, rfl, rfl⟩ := first.unique first'
      cases unknown.symm.trans found
  | cyclic first found again =>
    cases h' with
    | last plain => exact absurd plain first.opens
    | unclosed opens never => exact absurd never (first.closes opens)
    | unknown first' unknown =>
      obtain ⟨rfl, rfl, rfl, rfl⟩ := first.unique first'
      cases unknown.symm.trans found
    | cyclic first' _ _ =>
      obtain ⟨rfl, rfl, rfl, rfl⟩ := first.unique first'
      rfl
    | entered first' _ fresh _ _ =>
      obtain ⟨rfl, rfl, rfl, rfl⟩ := first.unique first'
      exact absurd again fresh
  | entered first found fresh _ _ inner others =>
    cases h' with
    | last plain => exact absurd plain first.opens
    | unclosed opens never => exact absurd never (first.closes opens)
    | unknown first' unknown =>
      obtain ⟨rfl, rfl, rfl, rfl⟩ := first.unique first'
      cases unknown.symm.trans found
    | cyclic first' _ again =>
      obtain ⟨rfl, rfl, rfl, rfl⟩ := first.unique first'
      exact absurd again fresh
    | entered first' found' _ inner' others' =>
      obtain ⟨rfl, rfl, rfl, rfl⟩ := first.unique first'
      cases found.symm.trans found'
      rw [inner inner', others others']

/-- A run that gives a text has replaced the references. -/
theorem Runs.expands {result : Except Fault (List Char)} {out : List Char}
    (h : Runs declared stack r result) (ok : result = .ok out) :
    Expands (Named declared) r.text out := by
  induction h generalizing out with
  | last plain =>
    cases ok
    exact .last (splitRegion?_eq_none_iff.1 plain)
  | unclosed | unknown | cyclic => cases ok
  | entered first found _ _ _ inner others =>
    obtain ⟨shown, given, ok⟩ := results_of_bind ok
    obtain ⟨left, left_given, ok⟩ := results_of_bind ok
    cases ok
    exact .reference first.first ⟨_, found, rfl⟩ (inner given) (others left_given)

/-- In a sound template a run gives a text: each name on the stack leads to those that the text
refers to, so none of these is on the stack. -/
theorem Runs.ok {main : List (List Char)} (sound : Sound (Named declared) main)
    {result : Except Fault (List Char)} (h : Runs declared stack r result)
    (closed : ¬ Broken r.text)
    (reached : ∀ name, Mentions r.text name →
      ∃ cs, Reached (Named declared) main cs ∧ Mentions cs name)
    (below : ∀ outer ∈ stack, ∀ name, Mentions r.text name →
      TransGen (Leads (Named declared)) outer name) : ∃ out, result = .ok out := by
  induction h with
  | last => exact ⟨_, rfl⟩
  | unclosed opens never =>
    exact absurd (.first (first_of_splitRegion? opens) (splitRegion?_eq_none_iff.1 never)) closed
  | unknown first unknown =>
    obtain ⟨cs, reached, mention⟩ := reached _ (.first first.first)
    obtain ⟨_, _, found, -⟩ := sound.declared cs _ reached mention
    cases unknown.symm.trans found
  | cyclic first found again =>
    obtain ⟨cs, reached, mention⟩ := reached _ (.first first.first)
    exact absurd (below _ again _ (.first first.first)) (sound.acyclic cs _ reached mention)
  | @entered stack r before rest body name span shown out first found fresh _ _ inner others =>
    have named : Named declared name body.text := ⟨_, found, rfl⟩
    obtain ⟨cs, entered, mention⟩ := reached _ (.first first.first)
    have bodyReached := Reached.body entered mention named
    obtain ⟨shown, rfl⟩ := inner (sound.closed _ bodyReached)
      (fun name mention => ⟨_, bodyReached, mention⟩) (by
        rintro outer (_ | ⟨_, mem⟩) next mention
        · exact .single ⟨_, named, mention⟩
        · exact (below _ mem _ (.first first.first)).tail ⟨_, named, mention⟩)
    obtain ⟨out, rfl⟩ := others (fun broken => closed (.later first.first broken))
      (fun name mention => reached name (.later first.first mention))
      (fun outer mem name mention => below outer mem name (.later first.first mention))
    exact ⟨_, rfl⟩

/-! ## The bound on the depth -/

/-- What is put in place of a reference, if bodies are expanded `depth` levels deep. -/
def resolve (declared : List (String × Region)) (depth : Nat) (stack : List String) (name : String)
    (span : Span) : Except Fault (List Char) :=
  match declared.lookup name with
  | none => .error ⟨.unknownFragment name, span⟩
  | some body =>
    if stack.contains name then .error ⟨.cyclicFragment name, span⟩
    else expand declared depth (name :: stack) body

theorem runs_expandWith {depth : Nat}
    (inner : ∀ name body, declared.lookup name = some body → name ∉ stack →
      Runs declared (name :: stack) body (expand declared depth (name :: stack) body))
    {fuel : Nat} (enough : r.text.length ≤ fuel) :
    Runs declared stack r (expandWith (resolve declared depth stack) fuel r) := by
  induction fuel generalizing r with
  | zero =>
    have empty := List.length_eq_zero_iff.1 (Nat.le_zero.1 enough)
    exact .last (splitRegion?_eq_none_iff.2 (by rw [empty]; decide))
  | succ fuel ih =>
    rw [expandWith]
    split
    · rename_i none
      exact .last none
    · rename_i before head opens
      split
      · rename_i never
        exact .unclosed opens never
      · rename_i inside rest closes
        have first : ReferenceAt r before (title inside.text) ⟨before.stop, rest.start⟩ rest :=
          ⟨head, inside, opens, closes, rfl, rfl⟩
        have shorter : rest.text.length ≤ fuel := by
          have := (first_of_splitRegion? opens).length
          have := (first_of_splitRegion? closes).length
          have : 0 < referenceOpen.length := by decide
          omega
        rw [toString_trim, resolve]
        cases found : declared.lookup (title inside.text) with
        | none => exact .unknown first found
        | some body =>
          dsimp only
          by_cases again : title inside.text ∈ stack
          · rw [if_pos (List.contains_iff_mem.2 again)]
            exact .cyclic first found again
          · rw [if_neg (List.contains_iff_mem.not.2 again)]
            exact .entered first found again (inner _ _ found again) (ih shorter)

/-- The names on the stack are different and declared, so the stack never holds more names than
there are declarations, and the depth is never used up. -/
theorem runs_expand {depth : Nat} (fresh : stack.Nodup)
    (names : ∀ name ∈ stack, name ∈ declared.map Prod.fst)
    (enough : declared.length < depth + stack.length) :
    Runs declared stack r (expand declared depth stack r) := by
  induction depth generalizing stack r with
  | zero =>
    have le := (fresh.subperm names).length_le
    rw [List.length_map] at le
    omega
  | succ depth ih =>
    refine runs_expandWith ?_ le_rfl
    intro name body found again
    have mem : name ∈ declared.map Prod.fst := by
      obtain ⟨before, after, rfl, -⟩ := List.lookup_eq_some_iff.1 found
      simp
    refine ih (List.nodup_cons.2 ⟨again, fresh⟩) (List.forall_mem_cons.2 ⟨mem, names⟩) ?_
    rw [List.length_cons]
    omega

theorem runs_iff {result : Except Fault (List Char)} :
    Runs declared [] r result ↔ expand declared (declared.length + 1) [] r = result := by
  have run : Runs declared [] r (expand declared (declared.length + 1) [] r) :=
    runs_expand List.nodup_nil (by simp) (by simp)
  constructor
  · exact run.unique
  · rintro rfl
    exact run

end Declared

/-! ## The whole -/

theorem expandAll_eq_ok_iff {f : Fragments} {out : List Char} : f.expandAll = .ok out ↔
    ∃ outs, List.Forall₂ (fun r out => Runs f.declared [] r (.ok out)) f.main outs ∧
      out = outs.flatten := by
  -- the texts before the ones that are left are in `init` already
  have fold (main : List Region) (init : List Char) :
      main.foldlM (fun out r =>
          (expand f.declared (f.declared.length + 1) [] r).map (out ++ ·)) init = .ok out ↔
        ∃ outs, List.Forall₂ (fun r out => Runs f.declared [] r (.ok out)) main outs ∧
          out = init ++ outs.flatten := by
    induction main generalizing init with
    | nil =>
      simp only [List.foldlM_nil, List.forall₂_nil_left_iff, exists_eq_left, List.flatten_nil,
        List.append_nil]
      exact ⟨fun h => (Except.ok.inj h).symm, fun h => h ▸ rfl⟩
    | cons r main ih =>
      rw [List.foldlM_cons]
      constructor
      · intro h
        obtain ⟨_, mapped, h⟩ := results_of_bind h
        obtain ⟨shown, run, rfl⟩ := results_of_map mapped
        obtain ⟨outs, runs, rfl⟩ := (ih _).1 h
        exact ⟨shown :: outs, .cons (runs_iff.2 run) runs, by simp⟩
      · rintro ⟨_, runs, rfl⟩
        obtain _ | ⟨run, runs⟩ := runs
        rw [runs_iff.1 run]
        exact (ih _).2 ⟨_, runs, by simp⟩
  exact fold f.main []

theorem fills_of_expandAll {f : Fragments} {out : List Char} (h : f.expandAll = .ok out) :
    Fills (Named f.declared) (f.main.map Region.text) out := by
  obtain ⟨outs, runs, rfl⟩ := expandAll_eq_ok_iff.1 h
  refine ⟨outs, List.forall₂_map_left_iff.2 (runs.imp ?_), rfl⟩
  intro r out run
  exact run.expands rfl

theorem exists_forall₂ {α β : Type} {R : α → β → Prop} {xs : List α} (h : ∀ x ∈ xs, ∃ y, R x y) :
    ∃ ys, List.Forall₂ R xs ys := by
  induction xs with
  | nil => exact ⟨[], .nil⟩
  | cons x xs ih =>
    obtain ⟨⟨y, related⟩, h⟩ := List.forall_mem_cons.1 h
    obtain ⟨ys, others⟩ := ih h
    exact ⟨y :: ys, .cons related others⟩

/-- A sound template can be expanded. -/
theorem expandAll_of_sound {f : Fragments}
    (sound : Sound (Named f.declared) (f.main.map Region.text)) : ∃ out, f.expandAll = .ok out := by
  have runs : ∀ r ∈ f.main, ∃ out, Runs f.declared [] r (.ok out) := by
    intro r mem
    have reached : Reached (Named f.declared) (f.main.map Region.text) r.text :=
      .main (List.mem_map_of_mem mem)
    have run := runs_iff.2 (Eq.refl (expand f.declared (f.declared.length + 1) [] r))
    obtain ⟨out, ok⟩ := run.ok sound (sound.closed _ reached)
      (fun name mention => ⟨_, reached, mention⟩) nofun
    rw [ok] at run
    exact ⟨out, run⟩
  obtain ⟨outs, runs⟩ := exists_forall₂ runs
  exact ⟨_, expandAll_eq_ok_iff.2 ⟨outs, runs, rfl⟩⟩

theorem expandAll_iff_fills {f : Fragments} {out : List Char} :
    f.expandAll = .ok out ↔ Fills (Named f.declared) (f.main.map Region.text) out := by
  have functional := named_unique f.declared
  constructor
  · exact fills_of_expandAll
  · intro fills
    obtain ⟨out', expanded⟩ := expandAll_of_sound (fills.sound functional)
    rw [fills.unique functional (fills_of_expandAll expanded)]
    exact expanded

/-- The declarations of a source are collected if it can be read as texts between declarations.
Expansion then ends, for every text in one way: its run has a result, which is found within the
bound on the depth. It gives an output if and only if every reached reference has an end, names a
declared fragment and does not lead back to itself, and the output is the texts with each reference
replaced by the body of the last declaration of its name, as that expands in turn. -/
theorem fragments_expand (source : List Char) :
    ((∃ f, collect source.length ⟨0, source⟩ = .ok f) ↔
      ∃ main fragments, Declares source main fragments) ∧
    ∀ main fragments, Declares source main fragments →
      ∃ f, collect source.length ⟨0, source⟩ = .ok f ∧ f.main.map Region.text = main ∧
        (∀ r ∈ f.main, ∀ result, Runs f.declared [] r result ↔
          expand f.declared (f.declared.length + 1) [] r = result) ∧
        ((∃ out, f.expandAll = .ok out) ↔ Sound (Latest fragments) main) ∧
        ∀ out, f.expandAll = .ok out ↔ Fills (Latest fragments) main out := by
  refine ⟨⟨?_, ?_⟩, ?_⟩
  · rintro ⟨f, collected⟩
    exact ⟨_, _, declares_of_collect (r := ⟨0, source⟩) le_rfl collected⟩
  · rintro ⟨main, fragments, declares⟩
    obtain ⟨f, collected, -⟩ := declares.collect (r := ⟨0, source⟩) rfl le_rfl
    exact ⟨f, collected⟩
  · intro main fragments declares
    obtain ⟨f, collected, rfl, declared⟩ := declares.collect (r := ⟨0, source⟩) rfl le_rfl
    rw [← named_iff declared]
    refine ⟨f, collected, rfl, fun r _ result => runs_iff, ⟨?_, expandAll_of_sound⟩,
      fun out => expandAll_iff_fills⟩
    rintro ⟨out, expanded⟩
    exact (fills_of_expandAll expanded).sound (named_unique f.declared)

/-- A fragment that refers to another one, which is declared behind it, and twice. -/
theorem fragments_expand_nested :
    let source := ("\x7b\x7b#block a\x7d\x7dx\x7b\x7b> b \x7d\x7d\x7b\x7b/block\x7d\x7d" ++
      "[\x7b\x7b>a\x7d\x7d|\x7b\x7b#block b\x7d\x7d1\x7b\x7b/block\x7d\x7d\x7b\x7b> b\x7d\x7d]" ++
      "\x7b\x7b#block b\x7d\x7d2\x7b\x7b/block\x7d\x7d").toList
    let main := ["".toList, "[\x7b\x7b>a\x7d\x7d|".toList, "\x7b\x7b> b\x7d\x7d]".toList, "".toList]
    let fragments := [("a", "x\x7b\x7b> b \x7d\x7d".toList), ("b", "1".toList), ("b", "2".toList)]
    Declares source main fragments ∧ Sound (Latest fragments) main ∧
      Fills (Latest fragments) main "[x2|2]".toList := by
  intro source main fragments
  have read : (collect source.length ⟨0, source⟩).map (fun f =>
      (f.main.map Region.text, (f.declared.map (Prod.map id Region.text)).reverse)) =
        .ok (main, fragments) := by
    decide +kernel
  have expands : (collect source.length ⟨0, source⟩ >>= Fragments.expandAll) =
      .ok "[x2|2]".toList := by
    decide +kernel
  obtain ⟨f, collected, expanded⟩ := results_of_bind expands
  have declares : Declares source main fragments := by
    have declares := declares_of_collect (r := ⟨0, source⟩) le_rfl collected
    rw [collected] at read
    obtain ⟨texts, bodies⟩ := Prod.mk.inj (Except.ok.inj read)
    rwa [texts, bodies] at declares
  obtain ⟨f', collected', -, -, sound, fills⟩ := (fragments_expand source).2 main fragments declares
  cases collected.symm.trans collected'
  exact ⟨declares, sound.1 ⟨_, expanded⟩, (fills _).1 expanded⟩

end LiveTemplate.DoubleBrace
