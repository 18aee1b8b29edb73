/-
Single braces in the older dialect. A template without tags, before a tag that shows nothing, is
rendered as it is written, but for three things that conversion does wherever they stand: a brace in
the value of an attribute is escaped although nothing takes the escape away there, a closing percent
bracket is unified although no tag is open, and a backslash before the tag guards its brace.
-/
import LiveTemplate.Proofs.DoubleBrace.Segments
import LiveTemplate.Proofs.Markup.Literal
import LiveTemplate.Proofs.Render.Capture

namespace LiveTemplate

open Text Markup

/-! ## Rewriting -/

namespace DoubleBrace

/-- A text where a brace stands behind a backslash. -/
def escapeBraces (cs : List Char) : List Char :=
  cs.flatMap fun c => if c = '{' then ['\\', '{'] else [c]

theorem length_unifyClose (cs : List Char) : (unifyClose cs).length = cs.length := by
  fun_induction unifyClose cs with
  | case1 rest ih => simp [ih]
  | case2 c rest _ ih => simp [ih]
  | case3 => rfl

/-- A bracket is not cut by the end of a text unless it begins there. -/
theorem unifyClose_append {cs rest : List Char}
    (border : cs.getLast? = some '%' → rest.head? ≠ some '}') :
    unifyClose (cs ++ rest) = unifyClose cs ++ unifyClose rest := by
  fun_induction unifyClose cs with
  | case1 cs ih =>
    rw [List.cons_append, List.cons_append, unifyClose, ih]
    · rfl
    · intro last
      refine border ?_
      rw [List.getLast?_cons, List.getLast?_cons, last]
      rfl
  | case2 c cs plain ih =>
    rw [List.cons_append, unifyClose, ih]
    · rfl
    · intro last
      refine border ?_
      rw [List.getLast?_cons, last]
      rfl
    · rintro more rfl eq
      cases cs with
      | nil =>
        rw [List.nil_append] at eq
        exact border rfl (by rw [eq]; rfl)
      | cons d cs =>
        cases eq
        exact plain cs rfl rfl
  | case3 => rfl

theorem unifyClose_eq_iff {cs : List Char} : unifyClose cs = cs ↔ ¬ ['%', '}'] <:+: cs := by
  constructor
  · intro same found
    fun_induction unifyClose cs with
    | case1 cs _ => cases same
    | case2 c cs plain ih =>
      obtain starts | inside := List.infix_cons_iff.1 found
      · obtain ⟨more, eq⟩ := starts
        cases eq
        exact plain more rfl rfl
      · exact ih (List.cons.inj same).2 inside
    | case3 => simp at found
  · exact unifyClose_of_free

theorem eq_nil_of_begins {c : Char} {p cs : List Char} (free : c ∉ p) (h : p <+: c :: cs) :
    p = [] := by
  cases p with
  | nil => rfl
  | cons d p =>
    rw [List.cons_prefix_cons] at h
    simp [h.1] at free

/-- What has no closing brace is in a unified text only where it was before. -/
theorem infix_of_unifyClose {p cs : List Char} (free : '}' ∉ p) (h : p <:+: unifyClose cs) :
    p <:+: cs := by
  have starts {p cs : List Char} (free : '}' ∉ p) (h : p <+: unifyClose cs) : p <+: cs := by
    fun_induction unifyClose cs generalizing p with
    | case1 cs _ =>
      rw [eq_nil_of_begins free h]
      exact List.nil_prefix
    | case2 c cs _ ih =>
      cases p with
      | nil => exact List.nil_prefix
      | cons d p =>
        obtain ⟨rfl, later⟩ := List.cons_prefix_cons.1 h
        exact List.cons_prefix_cons.2 ⟨rfl, ih (List.not_mem_of_not_mem_cons free) later⟩
    | case3 => exact h
  fun_induction unifyClose cs with
  | case1 cs ih =>
    rw [List.infix_cons_iff, List.infix_cons_iff] at h
    obtain h | h | h := h
    · rw [eq_nil_of_begins free h]
      exact List.nil_infix
    · rw [eq_nil_of_begins free h]
      exact List.nil_infix
    · exact (ih h).trans (List.suffix_append ['%', '}'] cs).isInfix
  | case2 c cs plain ih =>
    rw [List.infix_cons_iff] at h ⊢
    refine h.imp (fun h => ?_) ih
    refine starts free ?_
    rw [unifyClose]
    · exact h
    · exact plain
  | case3 => exact h

/-- The last character of a unified text is a closing brace, or it was the last one before. -/
theorem getLast?_unifyClose {c : Char} {cs : List Char} (other : c ≠ '}')
    (h : (unifyClose cs).getLast? = some c) : cs.getLast? = some c := by
  fun_induction unifyClose cs with
  | case1 cs ih =>
    rw [List.getLast?_cons, List.getLast?_cons, Option.getD_some] at h ⊢
    cases last : (unifyClose cs).getLast? with
    | none =>
      rw [last] at h
      exact absurd (Option.some.inj h).symm other
    | some d =>
      rw [last] at h
      cases h
      rw [ih last, Option.getD_some]
  | case2 d cs _ ih =>
    rw [List.getLast?_cons] at h ⊢
    cases last : (unifyClose cs).getLast? with
    | none =>
      rw [last] at h
      rw [List.getLast?_eq_none_iff, ← List.length_eq_zero_iff, length_unifyClose] at last
      rw [List.length_eq_zero_iff.1 last]
      exact h
    | some e =>
      rw [last] at h
      cases h
      rw [ih last, Option.getD_some]
  | case3 => exact h

theorem escapeBraces_append (cs rest : List Char) :
    escapeBraces (cs ++ rest) = escapeBraces cs ++ escapeBraces rest :=
  List.flatMap_append

theorem escapeBraces_of_free {cs : List Char} (free : '{' ∉ cs) : escapeBraces cs = cs := by
  have each : ∀ c ∈ cs, (if c = '{' then ['\\', '{'] else [c]) = [c] := by
    intro c mem
    rw [if_neg]
    rintro rfl
    exact free mem
  rw [escapeBraces, List.flatMap_congr each, List.flatMap_singleton']

theorem getLast?_escapeBraces {c : Char} {cs : List Char}
    (h : (escapeBraces cs).getLast? = some c) : cs.getLast? = some c := by
  obtain rfl | ⟨before, d, rfl⟩ := List.eq_nil_or_concat' cs
  · exact h
  · rw [escapeBraces_append] at h
    by_cases brace : d = '{'
    · subst brace
      simpa [escapeBraces] using h
    · simpa [escapeBraces, brace] using h

theorem length_escapeBraces (cs : List Char) :
    (escapeBraces cs).length = cs.length + cs.count '{' := by
  induction cs with
  | nil => rfl
  | cons c cs ih =>
    rw [← List.singleton_append, escapeBraces_append, List.length_append, ih]
    by_cases brace : c = '{'
    · subst brace
      simp [escapeBraces]
      omega
    · simp [escapeBraces, brace]
      omega

/-- What conversion does to a text without tags is nothing exactly where the text has neither an
opening brace nor a closing percent bracket. -/
theorem converted_eq_iff {cs : List Char} :
    escapeBraces (unifyClose cs) = cs ↔ '{' ∉ cs ∧ ¬ ['%', '}'] <:+: cs := by
  rw [← unifyClose_eq_iff]
  constructor
  · intro same
    -- escaping makes a text longer by its braces, and unifying keeps the length
    have length := length_escapeBraces (unifyClose cs)
    rw [same, length_unifyClose] at length
    have free : '{' ∉ unifyClose cs := List.count_eq_zero.1 (by omega)
    rw [escapeBraces_of_free free] at same
    rw [same] at free
    exact ⟨free, same⟩
  · rintro ⟨free, same⟩
    rw [same, escapeBraces_of_free free]

end DoubleBrace

/-! ## Literals -/

/-- An attribute as literals have it, but for single braces in its value. -/
def Markup.BracedAttribute (a : String × Option String) : Prop :=
  RawAttribute a ∧ ∀ value ∈ a.2, ∀ c ∈ ['{', '%'], ¬ ['{', c] <:+: value.toList

mutual

/-- A part with its texts and values rewritten. -/
def Literal.rewrite (f : List Char → List Char) : Literal → Literal
  | .text text => .text (f text)
  | .declaration inside => .declaration inside
  | .element name attrs children =>
    .element name (attrs.map (withValue fun v => String.ofList (f v.toList)))
      (Literals.rewrite f children)

/-- Parts with their texts and values rewritten. -/
def Literals.rewrite (f : List Char → List Char) : List Literal → List Literal
  | [] => []
  | l :: rest => l.rewrite f :: Literals.rewrite f rest

end

/-- A change of texts that is made at braces only, and not over the end of a text unless it ends
within a closing percent bracket. -/
structure ChangesBraces (f : List Char → List Char) : Prop where
  append : ∀ cs rest : List Char, (cs.getLast? = some '%' → rest.head? ≠ some '}') →
    f (cs ++ rest) = f cs ++ f rest
  free : ∀ cs : List Char, '{' ∉ cs → '}' ∉ cs → f cs = cs
  chars : ∀ cs : List Char, ∀ c ∈ f cs, c ∈ cs ∨ c ∈ ['\\', '{', '}']
  text : ∀ {P : String × Option String → Prop} (text : List Char),
    (Literal.text text).Made P → (Literal.text (f text)).Made P

namespace ChangesBraces

variable {f : List Char → List Char} {cs rest : List Char}

theorem before (hf : ChangesBraces f) (cs : List Char) (border : rest.head? ≠ some '}') :
    f (cs ++ rest) = f cs ++ f rest :=
  hf.append cs rest fun _ => border

/-- A text without any part of a bracket stays. -/
theorem behind (hf : ChangesBraces f) (cs : List Char) (free : ∀ c ∈ cs, c ∉ ['{', '}', '%'])
    (rest : List Char) : f (cs ++ rest) = cs ++ f rest := by
  rw [hf.append, hf.free]
  · exact fun brace => free _ brace (by decide)
  · exact fun brace => free _ brace (by decide)
  · exact fun last => absurd (by decide) (free _ (List.mem_of_getLast? last))

end ChangesBraces

theorem attributeName_free {name : String} (h : Page.isAttributeName name = true) :
    ∀ c ∈ name.toList, c ∉ ['{', '}', '%'] := by
  obtain ⟨-, -, -, -, chars⟩ := isAttributeName_chars h
  have among : ['{', '}', '%'] ⊆ attributeMarks := by decide
  exact fun c mem mark => not_mem_of_attributeNameChar (chars c mem) (among mark)

theorem tagName_free {name : String} (h : Page.isTagName name = true) :
    ∀ c ∈ name.toList, c ∉ ['{', '}', '%'] := by
  obtain ⟨-, -, -, -, chars⟩ := Page.isTagName_chars h
  exact fun c mem => Page.not_mem_of_test (by decide +kernel) (chars c mem).1

section Rewriting

variable {f : List Char → List Char}

theorem attribute_rewrite (hf : ChangesBraces f) {a : String × Option String}
    (named : Page.isAttributeName a.1 = true) (rest : List Char) : f (attributeSource a ++ rest) =
      attributeSource (withValue (fun v => String.ofList (f v.toList)) a) ++ f rest := by
  have name := attributeName_free named
  obtain ⟨name', _ | value⟩ := a
  · exact hf.behind _ (List.forall_mem_cons.2 ⟨by simp, name⟩) rest
  · have front : ∀ c ∈ ' ' :: name'.toList ++ ['=', '"'], c ∉ ['{', '}', '%'] := by
      rw [List.forall_mem_append]
      exact ⟨List.forall_mem_cons.2 ⟨by simp, name⟩, by simp⟩
    have quote : f ('"' :: rest) = '"' :: f rest := hf.behind ['"'] (by simp) rest
    have inside : f (value.toList ++ '"' :: rest) = f value.toList ++ '"' :: f rest := by
      rw [hf.before _ (by simp), quote]
    have whole := hf.behind _ front (value.toList ++ '"' :: rest)
    rw [inside] at whole
    simpa [attributeSource, withValue] using whole

/-- Changing the attributes as they are written changes their values. -/
theorem attributes_rewrite (hf : ChangesBraces f) {attrs : List (String × Option String)}
    (rest : List Char) (ha : ∀ a ∈ attrs, Page.isAttributeName a.1 = true) :
    f (attrs.flatMap attributeSource ++ rest) =
      (attrs.map (withValue fun v => String.ofList (f v.toList))).flatMap attributeSource ++
        f rest := by
  induction attrs with
  | nil => rfl
  | cons a attrs ih =>
    obtain ⟨named, others⟩ := List.forall_mem_cons.1 ha
    rw [List.flatMap_cons, List.append_assoc, attribute_rewrite hf named, ih others, List.map_cons,
      List.flatMap_cons, List.append_assoc]

mutual

/-- Changing a part as it is written changes its texts and values. -/
theorem Literal.source_rewrite (hf : ChangesBraces f) : ∀ {l : Literal} {rest : List Char},
    l.Made RawAttribute → (l.isText = true → rest.head? ≠ some '}') →
      f (l.source ++ rest) = (l.rewrite f).source ++ f rest
  | .text text, rest, _, border => hf.before text (border rfl)
  | .declaration inside, rest, ⟨free, _⟩, _ => by
    have kept : f inside = inside :=
      hf.free inside (fun brace => free _ brace (by simp)) (fun brace => free _ brace (by simp))
    have stop : f ('>' :: rest) = '>' :: f rest := hf.behind ['>'] (by simp) rest
    have start := hf.behind ['<', '!'] (by simp) (inside ++ '>' :: rest)
    rw [hf.before inside (by simp), kept, stop] at start
    simpa [Literal.source, Literal.rewrite] using start
  | .element name attrs children, rest, ⟨hn, ha, _, inner⟩, _ => by
    have named := tagName_free hn
    have front : ∀ c ∈ '<' :: name.toList, c ∉ ['{', '}', '%'] :=
      List.forall_mem_cons.2 ⟨by simp, named⟩
    have closing : ∀ c ∈ '<' :: '/' :: name.toList ++ ['>'], c ∉ ['{', '}', '%'] := by
      rw [List.forall_mem_append]
      exact ⟨List.forall_mem_cons.2 ⟨by simp, List.forall_mem_cons.2 ⟨by simp, named⟩⟩, by simp⟩
    have stop (more : List Char) : f ('>' :: more) = '>' :: f more :=
      hf.behind ['>'] (by simp) more
    have start (more : List Char) : f ('<' :: (tagBody name attrs ++ '>' :: more)) =
        '<' :: (tagBody name (attrs.map (withValue fun v => String.ofList (f v.toList))) ++
          '>' :: f more) := by
      have opened := hf.behind _ front (attrs.flatMap attributeSource ++ '>' :: more)
      rw [attributes_rewrite hf _ fun a mem => (ha a mem).1, stop] at opened
      simpa [tagBody] using opened
    by_cases void : isVoid name = true
    · simpa [Literal.source, Literal.rewrite, void] using start rest
    · have inside := start
        (Literals.source children ++ ('<' :: '/' :: name.toList ++ ['>'] ++ rest))
      rw [Literals.source_rewrite hf inner (by simp), hf.behind _ closing] at inside
      simpa [Literal.source, Literal.rewrite, void] using inside

theorem Literals.source_rewrite (hf : ChangesBraces f) : ∀ {ls : List Literal} {rest : List Char},
    Literals.Made RawAttribute ls → rest.head? ≠ some '}' →
      f (Literals.source ls ++ rest) = Literals.source (Literals.rewrite f ls) ++ f rest
  | [], rest, _, _ => rfl
  | l :: ls, rest, ⟨first, separate, others⟩, border => by
    have next : l.isText = true → (Literals.source ls ++ rest).head? ≠ some '}' := by
      intro text
      have apart := separate text
      cases ls with
      | nil => exact border
      | cons next ls =>
        cases next with
        | text => cases apart
        | declaration | element => simp [Literals.source, Literal.source]
    rw [Literals.source, List.append_assoc, Literal.source_rewrite hf first next,
      Literals.source_rewrite hf others border, Literals.rewrite, Literals.source,
      List.append_assoc]

end

theorem ChangesBraces.raw (hf : ChangesBraces f) {a : String × Option String}
    (h : RawAttribute a) : RawAttribute (withValue (fun v => String.ofList (f v.toList)) a) := by
  obtain ⟨name, _ | value⟩ := a
  · exact h
  · refine ⟨h.1, ?_⟩
    rintro _ ⟨⟩ c mem special
    rw [String.toList_ofList] at mem
    obtain mem | brace := hf.chars value.toList c mem
    · exact h.2 value rfl c mem special
    · simp only [List.mem_cons, List.not_mem_nil, or_false] at brace
      obtain rfl | rfl | rfl := brace <;> simp at special

mutual

theorem Literal.Made.rewrite (hf : ChangesBraces f) : ∀ {l : Literal}, l.Made RawAttribute →
    (l.rewrite f).Made RawAttribute
  | .text text, h => hf.text text h
  | .declaration _, h => h
  | .element _ _ _, ⟨hn, ha, void, inner⟩ => by
    refine ⟨hn, ?_, fun hv => by rw [void hv]; rfl, Literals.Made.rewrite hf inner⟩
    rw [List.forall_mem_map]
    exact fun a mem => hf.raw (ha a mem)

/-- Changed literals are literals. -/
theorem Literals.Made.rewrite (hf : ChangesBraces f) : ∀ {ls : List Literal},
    Literals.Made RawAttribute ls → Literals.Made RawAttribute (Literals.rewrite f ls)
  | [], _ => trivial
  | l :: rest, ⟨first, separate, others⟩ => by
    refine ⟨Literal.Made.rewrite hf first, ?_, Literals.Made.rewrite hf others⟩
    have same (l : Literal) : (l.rewrite f).isText = l.isText := by
      cases l <;> rfl
    rw [same]
    cases rest with
    | nil => exact separate
    | cons next rest => simpa [Literals.rewrite, same] using separate

end

/-- A change of literals gives literals that are written as the changed text. -/
theorem Literals.Made.changed (hf : ChangesBraces f) {ls : List Literal}
    (h : Literals.Made RawAttribute ls) :
    ∃ ls', Literals.Made RawAttribute ls' ∧ Literals.source ls' = f (Literals.source ls) := by
  refine ⟨Literals.rewrite f ls, h.rewrite hf, ?_⟩
  have nothing : f [] = [] := hf.free [] (by simp) (by simp)
  have whole := Literals.source_rewrite hf h (show ([] : List Char).head? ≠ some '}' by simp)
  rw [List.append_nil, nothing, List.append_nil] at whole
  exact whole.symm

end Rewriting

/-! ### The two changes -/

namespace DoubleBrace

theorem startsTag_unifyClose (cs : List Char) : startsTag (unifyClose cs) = startsTag cs := by
  fun_cases unifyClose cs <;> rfl

theorem isPlainText_unifyClose {cs : List Char} (h : isPlainText cs = true) :
    isPlainText (unifyClose cs) = true := by
  fun_induction unifyClose cs with
  | case1 cs ih =>
    have others := (isPlainText_cons (isPlainText_cons h).2.2).2.2
    simp [isPlainText, ih others]
  | case2 c cs _ ih =>
    obtain ⟨brace, tag, others⟩ := isPlainText_cons h
    simp only [isPlainText, startsTag_unifyClose, ih others]
    simpa [brace, imp_iff_not_or] using tag
  | case3 => rfl

/-- No bracket is made of blanks. -/
theorem unifyClose_of_blank {cs : List Char} (h : (unifyClose cs).all isBlank = true) :
    unifyClose cs = cs := by
  fun_induction unifyClose cs with
  | case1 cs _ =>
    have brace : isBlank '}' = false := by decide
    simp [brace] at h
  | case2 c cs _ ih =>
    rw [List.all_cons, Bool.and_eq_true] at h
    rw [ih h.2]
  | case3 => rfl

theorem changesBraces_unifyClose : ChangesBraces unifyClose where
  append _ _ border := unifyClose_append border
  free cs _ close := unifyClose_of_free fun found => close (found.subset (by simp))
  chars cs c mem := by
    fun_induction unifyClose cs with
    | case1 cs ih =>
      obtain _ | ⟨_, _ | ⟨_, mem⟩⟩ := mem
      · exact .inr (by simp)
      · exact .inr (by simp)
      · exact (ih mem).imp_left fun mem => by simp [mem]
    | case2 d cs _ ih =>
      obtain _ | ⟨_, mem⟩ := mem
      · exact .inl List.mem_cons_self
      · exact (ih mem).imp_left fun mem => by simp [mem]
    | case3 => exact .inl mem
  text text h := by
    obtain ⟨nonempty, plain, kept⟩ := h
    refine ⟨?_, isPlainText_unifyClose plain, ?_⟩
    · rwa [← List.length_pos_iff, length_unifyClose, List.length_pos_iff]
    · rintro ⟨blank, line⟩
      have same := unifyClose_of_blank blank
      rw [same] at blank line
      exact kept ⟨blank, line⟩

theorem changesBraces_escapeBraces : ChangesBraces escapeBraces where
  append cs rest _ := escapeBraces_append cs rest
  free cs opens _ := escapeBraces_of_free opens
  chars cs c mem := by
    obtain ⟨d, hd, mem⟩ := List.mem_flatMap.1 mem
    split at mem
    · simp only [List.mem_cons, List.not_mem_nil, or_false] at mem ⊢
      tauto
    · rw [List.mem_singleton.1 mem]
      exact .inl hd
  text text h := by
    rw [escapeBraces_of_free (isPlainText_no_brace h.2.1)]
    exact h

end DoubleBrace

/-! ### Braces apart -/

section Apart

variable {y : Char} {q rest : List Char}

theorem attributes_apart (hy : y ∈ ['{', '%']) {attrs : List (String × Option String)}
    (ha : ∀ a ∈ attrs, BracedAttribute a)
    (h : '{' :: y :: q <:+: attrs.flatMap attributeSource ++ rest) : '{' :: y :: q <:+: rest := by
  induction attrs with
  | nil => exact h
  | cons a attrs ih =>
    obtain ⟨⟨⟨named, -⟩, single⟩, others⟩ := List.forall_mem_cons.1 ha
    refine ih others ?_
    have name : '{' ∉ a.1.toList := fun brace => attributeName_free named _ brace (by simp)
    rw [List.flatMap_cons, List.append_assoc] at h
    obtain ⟨name', _ | value⟩ := a
    · have free : '{' ∉ ' ' :: name'.toList := by simpa using name
      exact DoubleBrace.infix_of_append_free free h
    · have split : attributeSource (name', some value) ++ (attrs.flatMap attributeSource ++ rest) =
          (' ' :: (name'.toList ++ ['=', '"'])) ++ (value.toList ++
            (['"'] ++ (attrs.flatMap attributeSource ++ rest))) := by
        simp [attributeSource]
      rw [split] at h
      have h := DoubleBrace.infix_of_append_free (by simpa using name) h
      have quote : (['"'] ++ (attrs.flatMap attributeSource ++ rest)).head? ≠ some y := by
        rintro ⟨⟩
        simp at hy
      have h := DoubleBrace.infix_of_append (single value rfl y hy) (fun _ => quote) h
      exact DoubleBrace.infix_of_append_free (by simp) h

mutual

/-- In a part every brace is single, and none of them is at its end. -/
theorem Literal.apart (hy : y ∈ ['{', '%']) : ∀ {l : Literal} {rest : List Char},
    l.Made BracedAttribute → '{' :: y :: q <:+: l.source ++ rest → '{' :: y :: q <:+: rest
  | .text text, rest, ⟨_, plain, _⟩, h =>
    DoubleBrace.infix_of_append_free (isPlainText_no_brace plain) h
  | .declaration inside, rest, ⟨free, _⟩, h => by
    have inside : '{' ∉ inside := fun brace => free _ brace (by simp)
    exact DoubleBrace.infix_of_append_free (by simpa [Literal.source] using inside) h
  | .element name attrs children, rest, ⟨hn, ha, _, inner⟩, h => by
    have named : '{' ∉ name.toList := fun brace => tagName_free hn _ brace (by simp)
    have start {more : List Char}
        (h : '{' :: y :: q <:+: '<' :: (tagBody name attrs ++ '>' :: more)) :
        '{' :: y :: q <:+: more := by
      have split : '<' :: (tagBody name attrs ++ '>' :: more) =
          ('<' :: name.toList) ++ (attrs.flatMap attributeSource ++ (['>'] ++ more)) := by
        simp [tagBody]
      rw [split] at h
      have h := DoubleBrace.infix_of_append_free (by simpa using named) h
      exact DoubleBrace.infix_of_append_free (by simp) (attributes_apart hy ha h)
    by_cases void : isVoid name = true
    · exact start (by simpa [Literal.source, void] using h)
    · have h : '{' :: y :: q <:+: Literals.source children ++
          (('<' :: '/' :: (name.toList ++ ['>'])) ++ rest) :=
        start (by simpa [Literal.source, void] using h)
      exact DoubleBrace.infix_of_append_free (by simpa using named) (Literals.apart hy inner h)

theorem Literals.apart (hy : y ∈ ['{', '%']) : ∀ {ls : List Literal} {rest : List Char},
    Literals.Made BracedAttribute ls →
      '{' :: y :: q <:+: Literals.source ls ++ rest → '{' :: y :: q <:+: rest
  | [], rest, _, h => h
  | l :: ls, rest, ⟨first, _, others⟩, h => by
    rw [Literals.source, List.append_assoc] at h
    exact Literals.apart hy others (Literal.apart hy first h)

end

end Apart

/-! ## The whole -/

/-- A field that holds the empty text is shown as nothing. -/
theorem Items.render_empty_field (t : Template) (p : Place) (span : Span) {field : String}
    {c : Context} (h : c.state.value.get? field = some (.text "")) :
    ∃ anchor, Items.render t p [] [.block (.emit (.root span (.field field)) .text)] c =
      ([.block anchor [.text ""]], c) := by
  have value : Attempt.eval t [] (.root span (.field field)) c = (.ok (.text ""), c) := by
    have read : (Expr.root span (.field field)).IsField field := rfl
    rw [Attempt.eval, read.eval _ h]
  have node : t.present [] (.root span (.field field)) .text c = (.ok (.text ""), c) := by
    rw [Template.present, stateful_bind_ok value]
    rfl
  have nodes : t.emitted [] (.root span (.field field)) .text p.action c = ([.text ""], c) := by
    rw [Template.emitted, Attempt.recover, stateful_bind_ok node]
    rfl
  refine ⟨⟨p.action, p.pc, p.pc, []⟩, ?_⟩
  show ([Node.block _ (t.emitted [] _ .text p.action c).1], (t.emitted [] _ .text p.action c).2) = _
  rw [nodes]

/-- A tag that names a field is cut, read and laid out as the emission of the field. -/
theorem Understood.field (pos : Nat) :
    CutInto pos "\x7bx\x7d".toList [.braced ⟨pos + 1, ['x']⟩] ∧
    (∀ source, Piece.ofToken source (.braced ⟨pos + 1, ['x']⟩) =
      .ok (.directive (.expression ⟨pos + 1, ['x']⟩) ⟨pos + 1, pos + 2⟩)) ∧
    ∀ knows, Phrase.outline knows [] (.emit ⟨pos + 1, ['x']⟩ .text ⟨pos + 1, pos + 2⟩) =
      some [.block (.emit (.root ⟨pos + 1, pos + 2⟩ (.field "x")) .text)] := by
  refine ⟨?_, fun _ => rfl, fun _ => rfl⟩
  rintro (_ | _ | fuel) enough
  · cases enough
  · rfl
  · rfl

/-- Literals with raw values before a tag that shows nothing are rendered as they are written. -/
theorem Engine.compileSource_before_field {ls : List Literal} (h : Literals.Made RawAttribute ls)
    (guard : (Literals.source ls).getLast? ≠ some '\\') (engine : Engine) (name : Option String) :
    ∃ t, (engine.compileSource name
        (String.ofList (Literals.source ls ++ "\x7bx\x7d".toList))).2 = .ok t ∧
      ∀ c : Context, c.state.value.get? "x" = some (.text "") →
        toHtmlAll (t.render c).1 = String.ofList (Literals.source ls) := by
  obtain ⟨tokens, forest, understood⟩ :=
    Literals.understood ls 0 (h.mono fun _ => RawAttribute.closed)
  rw [h.mapValues_escapeText] at understood
  let pos := 0 + byteLength (Literals.source ls)
  let token : Markup.Token := .braced ⟨pos + 1, ['x']⟩
  let phrase : Phrase := .emit ⟨pos + 1, ['x']⟩ .text ⟨pos + 1, pos + 2⟩
  obtain ⟨fieldCut, fieldRead, fieldOutline⟩ := Understood.field pos
  have cut : Markup.tokens (String.ofList (Literals.source ls ++ "\x7bx\x7d".toList)).toList =
      (tokens ++ [token], none) := by
    rw [String.toList_ofList]
    exact understood.cut (fun _ => .inr (.inr ⟨_, rfl, guard⟩)) fieldCut _ le_rfl
  have read (source : List Char) : (tokens ++ [token]).mapM (Piece.ofToken source) =
      .ok (Phrases.pieces (forest ++ [phrase])) := by
    rw [Phrases.pieces_append, List.mapM_append, understood.read, List.mapM_cons, fieldRead]
    rfl
  obtain ⟨items, outline, shown⟩ := understood.shown engine.functions.contains []
  have last : Phrases.outline engine.functions.contains [] [phrase] =
      some [.block (.emit (.root ⟨pos + 1, pos + 2⟩ (.field "x")) .text)] := by
    rw [Phrases.outline, fieldOutline]
    rfl
  obtain ⟨t, compiled, run⟩ := engine.compileSource_of_outline name
    (outline?_forest cut (read _) (Phrases.outline_append last outline))
  refine ⟨t, compiled, fun c empty => ?_⟩
  obtain ⟨nodes, rendered, html⟩ := shown t .start [] (t.prepare c)
  have prepared : (t.prepare c).state.value.get? "x" = some (.text "") := empty
  obtain ⟨anchor, nothing⟩ := Items.render_empty_field t (.start + Items.room items)
    ⟨pos + 1, pos + 2⟩ prepared
  have silent : toHtmlAll [.block anchor [.text ""]] = "" := by
    simp [toHtmlAll, Node.toHtml, escapeText]
  rw [run, Items.render_append t [] _ items .start _ rendered, nothing, toHtmlAll_append, silent,
    String.append_empty, ← html, String.ofList_toList]

namespace DoubleBrace

/-- A tag of the older dialect behind literals is the only one: conversion copies the literals with
their braces changed. -/
theorem normalize_literals {ls : List Literal} (h : Literals.Made BracedAttribute ls) :
    let source := Literals.source ls
    detect (source ++ "\x7b\x7bx\x7d\x7d".toList) = true ∧
    normalize (String.ofList (source ++ "\x7b\x7bx\x7d\x7d".toList)) =
      .ok (String.ofList (escapeBraces (unifyClose source) ++ "\x7bx\x7d".toList)) := by
  intro source
  let tag : Tag := .expression ['x']
  have fits : tag.Fits := by decide +kernel
  have dialect : detect (source ++ tag.double) = true := by
    have dialect := detect_of_tag source ['x'] []
    rw [List.append_assoc] at dialect
    exact dialect
  -- no bracket begins in the literals, and none of them ends with a brace
  have apart {y : Char} {q rest : List Char} (hy : y ∈ ['{', '%'])
      (found : '{' :: y :: q <:+: source ++ rest) : '{' :: y :: q <:+: rest :=
    Literals.apart hy h found
  have opens : ¬ ['{', '%'] <:+: source ++ tag.double := by
    intro found
    exact absurd (apart (by simp) found) (by decide)
  have unified : unifyClose (source ++ tag.double) = unifyClose source ++ tag.double :=
    unifyClose_append fun _ => by decide
  have block : ¬ blockOpen <:+: unifyClose (source ++ tag.double) := by
    intro found
    have found := apart List.mem_cons_self (infix_of_unifyClose (by decide) found)
    exact absurd found (by decide)
  have reference : ¬ referenceOpen <:+: unifyClose (source ++ tag.double) := by
    intro found
    have found := apart List.mem_cons_self (infix_of_unifyClose (by decide) found)
    exact absurd found (by decide)
  have double : ¬ ['{', '{'] <:+: unifyClose source := by
    intro found
    have found := infix_of_unifyClose (by decide) found
    rw [← List.append_nil source] at found
    exact absurd (apart (by simp) found) (by decide)
  have last : (unifyClose source).getLast? ≠ some '{' := by
    intro last
    obtain ⟨before, eq⟩ := List.getLast?_eq_some_iff.1 (getLast?_unifyClose (by decide) last)
    have found : ['{', '{'] <:+: source ++ ['{'] := ⟨before, [], by simp [eq]⟩
    exact absurd (apart (by simp) found) (by decide)
  have expanded : expansion (source ++ tag.double) = .ok (unifyClose source ++ tag.double) := by
    rw [expansion_of_opens opens block reference, unified]
  obtain ⟨pieces, cutTag, written⟩ := Segment.cut_tag fits Cut.nil
  obtain ⟨pieces', cut, written'⟩ := Segment.cut_text double last cutTag
  have recognised : detect (String.ofList (source ++ tag.double)).toList = true := by
    rw [String.toList_ofList]
    exact dialect
  refine ⟨dialect, (normalize_eq_ok_iff recognised).2 ⟨_, pieces', ?_, cut, ?_⟩⟩
  · rw [String.toList_ofList, List.append_nil]
    exact expanded
  · rw [written', written]
    rfl

end DoubleBrace

/-- Literals before a tag of the older dialect that shows nothing are rendered as conversion leaves
them, unless a backslash at their end guards the brace of the tag. -/
theorem Engine.render_build_converted {ls : List Literal} (h : Literals.Made BracedAttribute ls)
    (guard : (Literals.source ls).getLast? ≠ some '\\') (engine : Engine)
    (dialect : engine.legacy = .detect) (name : Option String) :
    ∃ t, (engine.build name
        (String.ofList (Literals.source ls ++ "\x7b\x7bx\x7d\x7d".toList))).2 = .ok t ∧
      ∀ c : Context, c.state.value.get? "x" = some (.text "") → toHtmlAll (t.render c).1 =
        String.ofList (DoubleBrace.escapeBraces (DoubleBrace.unifyClose (Literals.source ls))) := by
  obtain ⟨recognised, normalized⟩ := DoubleBrace.normalize_literals h
  have raw : Literals.Made RawAttribute ls := h.mono fun _ braced => braced.1
  obtain ⟨unified, madeUnified, eqUnified⟩ := raw.changed DoubleBrace.changesBraces_unifyClose
  obtain ⟨escaped, made, eq⟩ := madeUnified.changed DoubleBrace.changesBraces_escapeBraces
  rw [eqUnified] at eq
  have guard : (Literals.source escaped).getLast? ≠ some '\\' := by
    intro last
    rw [eq] at last
    have last := DoubleBrace.getLast?_escapeBraces last
    exact guard (DoubleBrace.getLast?_unifyClose (by decide) last)
  obtain ⟨t, compiled, rendered⟩ := engine.compileSource_before_field made guard name
  rw [eq] at compiled rendered
  refine ⟨t, ?_, rendered⟩
  unfold build
  rw [String.toList_ofList, if_pos ⟨dialect, recognised⟩, normalized]
  dsimp only
  exact compiled

/-- In the older dialect a template of literals, in whose values braces may stand, is rendered with
each opening brace behind a backslash and each closing percent bracket unified: as it is written
exactly where it has neither. -/
theorem Engine.render_build_braces {ls : List Literal} (h : Literals.Made BracedAttribute ls)
    (guard : (Literals.source ls).getLast? ≠ some '\\') (engine : Engine)
    (dialect : engine.legacy = .detect) (name : Option String) :
    let source := Literals.source ls
    ∃ t, (engine.build name (String.ofList (source ++ "\x7b\x7bx\x7d\x7d".toList))).2 = .ok t ∧
      ∀ c : Context, c.state.value.get? "x" = some (.text "") →
        toHtmlAll (t.render c).1 =
          String.ofList (DoubleBrace.escapeBraces (DoubleBrace.unifyClose source)) ∧
        (toHtmlAll (t.render c).1 = String.ofList source ↔
          '{' ∉ source ∧ ¬ ['%', '}'] <:+: source) := by
  intro source
  obtain ⟨t, built, rendered⟩ := render_build_converted h guard engine dialect name
  refine ⟨t, built, fun c empty => ⟨rendered c empty, ?_⟩⟩
  rw [rendered c empty, String.ofList_inj, DoubleBrace.converted_eq_iff]

/-- Closing braces, percent signs and a backslash, none of which belongs to a bracket. -/
theorem Engine.render_build_braces_page :
    let literals : List Literal := [.element "p" [("title", some "\x7d 5% \x7d"), ("hidden", none)]
      [.text "\x7d 50% \\ \x7d".toList]]
    let source := "<p title=\"\x7d 5% \x7d\" hidden>\x7d 50% \\ \x7d</p>"
    Literals.Made BracedAttribute literals ∧ String.ofList (Literals.source literals) = source ∧
      (Literals.source literals).getLast? ≠ some '\\' ∧ Engine.new.legacy = .detect ∧
      ∃ t, (Engine.new.build none (source ++ "\x7b\x7bx\x7d\x7d")).2 = .ok t ∧ ∀ c : Context,
        c.state.value.get? "x" = some (.text "") → toHtmlAll (t.render c).1 = source := by
  intro literals source
  have names : Page.isTagName "p" = true ∧ isVoid "p" = false ∧
      Page.isAttributeName "title" = true ∧ Page.isAttributeName "hidden" = true := by
    decide +kernel
  have made : Literals.Made BracedAttribute literals := by
    simp [literals, Literals.Made, Literal.Made, BracedAttribute, RawAttribute,
      Literal.isText, names, isPlainText, startsTag, List.infix_cons_iff]
  have written : Literals.source literals = source.toList := by decide +kernel
  have guard : (Literals.source literals).getLast? ≠ some '\\' := by decide +kernel
  obtain ⟨t, built, rendered⟩ := Engine.render_build_braces made guard .new rfl none
  refine ⟨made, by rw [written, String.ofList_toList], guard, rfl, t, ?_, ?_⟩
  · rw [written, ← String.toList_append, String.ofList_toList] at built
    exact built
  · intro c empty
    obtain ⟨-, same⟩ := rendered c empty
    rw [same.2 (by rw [written]; decide +kernel), written, String.ofList_toList]

/-- A brace in a value is shown behind a backslash, a percent sign before a closing brace as a
brace, and a tag behind a backslash as text. -/
theorem Engine.render_build_brace_in_value :
    let context : Context :=
      { state := ⟨0, [("x", .text "")], [], ⟨1⟩⟩
        props := .map 0 []
        methods := []
        handlers := .withCapacity 16
        dependencies := none
        diagnostics := [] }
    let page (source : String) : Option String :=
      (Engine.new.build none source).2.toOption.map fun t => toHtmlAll (t.render context).1
    Literals.Made BracedAttribute [.element "p" [("title", some "\x7b")] []] ∧
    context.state.value.get? "x" = some (.text "") ∧
    page "<p title=\"\x7b\"></p>\x7b\x7bx\x7d\x7d" = some "<p title=\"\\\x7b\"></p>" ∧
    page "<p title=\"\x7b\"></p>\x7b\x7bx\x7d\x7d" ≠ some "<p title=\"\x7b\"></p>" ∧
    page "50%\x7d\x7b\x7bx\x7d\x7d" = some "50\x7d\x7d" ∧
    page "\\\x7b\x7bx\x7d\x7d" = some "\x7bx\x7d" := by
  intro context page
  have names : Page.isTagName "p" = true ∧ isVoid "p" = false ∧
      Page.isAttributeName "title" = true := by
    decide +kernel
  have made : Literals.Made BracedAttribute [.element "p" [("title", some "\x7b")] []] := by
    simp [Literals.Made, Literal.Made, BracedAttribute, RawAttribute, Literal.isText, names,
      List.infix_cons_iff]
  refine ⟨made, rfl, ?_, ?_, ?_, ?_⟩
  all_goals decide +kernel

end LiveTemplate
