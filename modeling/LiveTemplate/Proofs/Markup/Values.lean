/-
Templates without expressions: runs of text, declarations, and elements whose tags are written as a
page writes them. The values of their attributes may be replaced by others, and escaping them leaves
a template of this kind.
-/
import LiveTemplate.Proofs.Markup.Tag

namespace LiveTemplate

open Text Markup

/-! ## Literals -/

namespace Markup

/-- An attribute with the blank before it. -/
def attributeSource : String × Option String → List Char
  | (name, none) => ' ' :: name.toList
  | (name, some value) => ' ' :: (name.toList ++ '=' :: '"' :: (value.toList ++ ['"']))

/-- An opening tag from its name on. -/
def tagBody (name : String) (attrs : List (String × Option String)) : List Char :=
  name.toList ++ attrs.flatMap attributeSource

/-- An attribute with a name, and a value that needs no escapes. -/
def PlainAttribute (a : String × Option String) : Prop :=
  Page.isAttributeName a.1 = true ∧
    ∀ value ∈ a.2, ∀ c ∈ value.toList, c ∉ ['&', '<', '>', '"', '\'', '{']

/-- An attribute with a name, and a value that can stand in double quotes. -/
def QuotedAttribute (a : String × Option String) : Prop :=
  Page.isAttributeName a.1 = true ∧ ∀ value ∈ a.2, '"' ∉ value.toList ∧ '{' ∉ value.toList

/-- An attribute with a name, and a value that ends at the quote behind it. -/
def ClosedAttribute (a : String × Option String) : Prop :=
  Page.isAttributeName a.1 = true ∧ ∀ value ∈ a.2, '"' ∉ value.toList

/-- An attribute with a name, and a value that needs no escapes but may have braces. -/
def RawAttribute (a : String × Option String) : Prop :=
  Page.isAttributeName a.1 = true ∧
    ∀ value ∈ a.2, ∀ c ∈ value.toList, c ∉ ['&', '<', '>', '"', '\'']

/-- An attribute with another value. -/
def withValue (f : String → String) (a : String × Option String) : String × Option String :=
  (a.1, a.2.map f)

end Markup

/-- A part of a template without expressions. -/
inductive Literal where
  /-- A run of text. -/
  | text (text : List Char)
  /-- A declaration, with what stands between `<!` and `>`. -/
  | declaration (inside : List Char)
  /-- An element; the attributes without a value are flags. -/
  | element (name : String) (attrs : List (String × Option String)) (children : List Literal)

mutual

/-- A part as it is written; a void element has neither children nor a closing tag. -/
def Literal.source : Literal → List Char
  | .text text => text
  | .declaration inside => '<' :: '!' :: (inside ++ ['>'])
  | .element name attrs children =>
    '<' :: (tagBody name attrs ++ '>' :: if isVoid name then []
      else Literals.source children ++ '<' :: '/' :: (name.toList ++ ['>']))

/-- Parts as they are written. -/
def Literals.source : List Literal → List Char
  | [] => []
  | l :: rest => l.source ++ Literals.source rest

end

/-- A text without a brace and without a `<` that could begin a tag. -/
def isPlainText : List Char → Bool
  | [] => true
  | c :: rest => c != '{' && !(c == '<' && startsTag rest) && isPlainText rest

def Literal.isText : Literal → Bool
  | .text _ => true
  | _ => false

mutual

/-- What a part may be made of if its attributes have a property. -/
def Literal.Made (P : String × Option String → Prop) : Literal → Prop
  | .text text =>
    text ≠ [] ∧ isPlainText text = true ∧ ¬ (text.all isBlank = true ∧ '\n' ∈ text)
  | .declaration inside =>
    (∀ c ∈ inside, c ∉ ['"', '\'', '{', '}', '>']) ∧ ¬ ['-', '-'] <+: inside
  | .element name attrs children =>
    Page.isTagName name = true ∧ (∀ a ∈ attrs, P a) ∧
    (isVoid name = true → children = []) ∧ Literals.Made P children

/-- Parts of this kind, where a run of text is as long as it can be. -/
def Literals.Made (P : String × Option String → Prop) : List Literal → Prop
  | [] => True
  | l :: rest => l.Made P ∧ (l.isText = true → rest.head?.any Literal.isText = false) ∧
      Literals.Made P rest

end

/-- Parts whose values need no escapes. -/
def Literals.WellFormed (ls : List Literal) : Prop := Literals.Made PlainAttribute ls

/-- Parts whose values may need escapes. -/
def Literals.Writable (ls : List Literal) : Prop := Literals.Made QuotedAttribute ls

mutual

/-- A part with other values of attributes. -/
def Literal.mapValues (f : String → String) : Literal → Literal
  | .element name attrs children =>
    .element name (attrs.map (withValue f)) (Literals.mapValues f children)
  | l => l

/-- Parts with other values of attributes. -/
def Literals.mapValues (f : String → String) : List Literal → List Literal
  | [] => []
  | l :: rest => l.mapValues f :: Literals.mapValues f rest

end

mutual

/-- The values of the attributes of a part, in order. -/
def Literal.values : Literal → List String
  | .element _ attrs children => attrs.filterMap Prod.snd ++ Literals.values children
  | _ => []

/-- The values of the attributes of parts. -/
def Literals.values : List Literal → List String
  | [] => []
  | l :: rest => l.values ++ Literals.values rest

end

/-! ## Values -/

theorem filterMap_withValue (f : String → String) (attrs : List (String × Option String)) :
    (attrs.map (withValue f)).filterMap Prod.snd = (attrs.filterMap Prod.snd).map f := by
  rw [List.filterMap_map, List.map_filterMap]
  rfl

mutual

theorem Literal.values_mapValues (f : String → String) : ∀ l : Literal,
    (l.mapValues f).values = l.values.map f
  | .element name attrs children => by
    rw [Literal.mapValues, Literal.values, Literal.values, List.map_append, filterMap_withValue,
      Literals.values_mapValues f children]
  | .text _ => rfl
  | .declaration _ => rfl

theorem Literals.values_mapValues (f : String → String) : ∀ ls : List Literal,
    Literals.values (Literals.mapValues f ls) = (Literals.values ls).map f
  | [] => rfl
  | l :: rest => by
    rw [Literals.mapValues, Literals.values, Literals.values, List.map_append, l.values_mapValues f,
      Literals.values_mapValues f rest]

end

theorem Markup.PlainAttribute.quoted {a : String × Option String} (h : PlainAttribute a) :
    QuotedAttribute a :=
  ⟨h.1, fun value mem => ⟨fun quote => h.2 value mem _ quote (by decide),
    fun brace => h.2 value mem _ brace (by decide)⟩⟩

theorem Markup.QuotedAttribute.closed {a : String × Option String} (h : QuotedAttribute a) :
    ClosedAttribute a :=
  ⟨h.1, fun value mem => (h.2 value mem).1⟩

theorem Markup.PlainAttribute.raw {a : String × Option String} (h : PlainAttribute a) :
    RawAttribute a :=
  ⟨h.1, fun value mem c hc special => h.2 value mem c hc (List.mem_append_left ['{'] special)⟩

theorem Markup.RawAttribute.closed {a : String × Option String} (h : RawAttribute a) :
    ClosedAttribute a :=
  ⟨h.1, fun value mem quote => h.2 value mem _ quote (by decide)⟩

mutual

theorem Literal.Made.mono {P Q : String × Option String → Prop} (h : ∀ a, P a → Q a) :
    ∀ {l : Literal}, l.Made P → l.Made Q
  | .text _, made => made
  | .declaration _, made => made
  | .element _ _ _, ⟨hn, ha, void, inner⟩ =>
    ⟨hn, fun a mem => h a (ha a mem), void, Literals.Made.mono h inner⟩

theorem Literals.Made.mono {P Q : String × Option String → Prop} (h : ∀ a, P a → Q a) :
    ∀ {ls : List Literal}, Literals.Made P ls → Literals.Made Q ls
  | [], _ => trivial
  | _ :: _, ⟨first, separate, others⟩ =>
    ⟨Literal.Made.mono h first, separate, Literals.Made.mono h others⟩

end

mutual

theorem Literal.Made.mapValues {P Q : String × Option String → Prop} {f : String → String}
    (h : ∀ a, P a → Q (withValue f a)) : ∀ {l : Literal}, l.Made P → (l.mapValues f).Made Q
  | .text _, made => made
  | .declaration _, made => made
  | .element _ _ _, ⟨hn, ha, void, inner⟩ =>
    ⟨hn, List.forall_mem_map.2 fun a mem => h a (ha a mem), fun hv => by rw [void hv]; rfl,
      Literals.Made.mapValues h inner⟩

theorem Literals.Made.mapValues {P Q : String × Option String → Prop} {f : String → String}
    (h : ∀ a, P a → Q (withValue f a)) :
    ∀ {ls : List Literal}, Literals.Made P ls → Literals.Made Q (Literals.mapValues f ls)
  | [], _ => trivial
  | l :: rest, ⟨first, separate, others⟩ => by
    refine ⟨Literal.Made.mapValues h first, ?_, Literals.Made.mapValues h others⟩
    -- other values make no text of an element, so runs of text stay apart
    have same (l : Literal) : (l.mapValues f).isText = l.isText := by
      cases l <;> rfl
    rw [same]
    cases rest with
    | nil => exact separate
    | cons next rest => simpa [Literals.mapValues, same] using separate

end

theorem Literals.WellFormed.writable {ls : List Literal} (h : Literals.WellFormed ls) :
    Literals.Writable ls :=
  Literals.Made.mono (fun _ => PlainAttribute.quoted) h

theorem Literals.Writable.made {ls : List Literal} (h : Literals.Writable ls) :
    Literals.Made ClosedAttribute ls :=
  Literals.Made.mono (fun _ => QuotedAttribute.closed) h

/-! ### Escaped values -/

theorem escapeText_of_plain {s : String} (h : ∀ c ∈ s.toList, c ∉ ['&', '<', '>', '"', '\'']) :
    escapeText s = s := by
  have each : ∀ c ∈ s.toList, escapeChar c = [c] := by
    intro c hc
    have free := h c hc
    simp only [List.mem_cons, not_or] at free
    simp [escapeChar, free]
  rw [escapeText, List.flatMap_congr each, List.flatMap_singleton', String.ofList_toList]

theorem Markup.RawAttribute.withValue_escapeText {a : String × Option String}
    (h : RawAttribute a) : withValue escapeText a = a := by
  obtain ⟨name, _ | value⟩ := a
  · rfl
  · rw [withValue, Option.map_some, escapeText_of_plain (h.2 value rfl)]

mutual

/-- Escaping values that need no escapes changes nothing. -/
theorem Literal.Made.mapValues_escapeText : ∀ {l : Literal}, l.Made RawAttribute →
    l.mapValues escapeText = l
  | .text _, _ => rfl
  | .declaration _, _ => rfl
  | .element _ _ _, ⟨_, ha, _, inner⟩ => by
    rw [Literal.mapValues, Literals.Made.mapValues_escapeText inner,
      List.map_congr_left fun a mem => (ha a mem).withValue_escapeText, List.map_id']

theorem Literals.Made.mapValues_escapeText : ∀ {ls : List Literal}, Literals.Made RawAttribute ls →
    Literals.mapValues escapeText ls = ls
  | [], _ => rfl
  | l :: rest, ⟨first, _, others⟩ => by
    rw [Literals.mapValues, Literal.Made.mapValues_escapeText first,
      Literals.Made.mapValues_escapeText others]

end

theorem Literals.WellFormed.mapValues_escapeText {ls : List Literal} (h : Literals.WellFormed ls) :
    Literals.mapValues escapeText ls = ls :=
  (Literals.Made.mono (fun _ => PlainAttribute.raw) h).mapValues_escapeText

/-- An escaped value can stand in double quotes. -/
theorem Markup.QuotedAttribute.withValue_escapeText {a : String × Option String}
    (h : QuotedAttribute a) : QuotedAttribute (withValue escapeText a) := by
  obtain ⟨name, _ | value⟩ := a
  · exact h
  · refine ⟨h.1, ?_⟩
    rintro _ ⟨⟩
    refine ⟨(Page.not_mem_escapeText value).2, fun brace => ?_⟩
    rw [escapeText, String.toList_ofList, List.mem_flatMap] at brace
    obtain ⟨c, hc, brace⟩ := brace
    -- no entity has a brace, and a character that is kept is one of the value
    unfold escapeChar at brace
    split_ifs at brace
    case neg =>
      rw [List.mem_singleton] at brace
      exact (h.2 value rfl).2 (brace ▸ hc)
    all_goals exact absurd brace (by decide)

theorem Literals.Writable.mapValues_escapeText {ls : List Literal} (h : Literals.Writable ls) :
    Literals.Writable (Literals.mapValues escapeText ls) :=
  Literals.Made.mapValues (fun _ => QuotedAttribute.withValue_escapeText) h

/-! ## Written elements -/

/-- How the value of an attribute of a literal is written. -/
def Literal.setting : Option String → Setting
  | some value => .quoted value
  | none => .flag

/-- The opening tag of an element of a literal. -/
def Literal.openTag (name : String) (attrs : List (String × Option String)) : OpenTag where
  name := name
  attrs := attrs.map fun a => (a.1, setting a.2)
  closesItself := false

theorem Literal.openTag_body (name : String) (attrs : List (String × Option String)) :
    (openTag name attrs).body = tagBody name attrs := by
  have each : ∀ a ∈ attrs, settingSource (a.1, setting a.2) = attributeSource a := by
    rintro ⟨name, _ | value⟩ -
    · exact congrArg (' ' :: ·) (List.append_nil _)
    · rfl
  simp [OpenTag.body, openTag, tagEnding, tagBody, List.flatMap_map, List.flatMap_congr each]

theorem Literal.source_element (name : String) (attrs : List (String × Option String))
    (children : List Literal) : (element name attrs children).source =
      (openTag name attrs).source ++ if isVoid name then []
        else Literals.source children ++ '<' :: '/' :: (name.toList ++ ['>']) := by
  simp [Literal.source, OpenTag.source, openTag_body]

theorem Literal.openTag_wellFormed {name : String} (hn : Page.isTagName name = true)
    {attrs : List (String × Option String)} (ha : ∀ a ∈ attrs, ClosedAttribute a) :
    (openTag name attrs).WellFormed := by
  refine ⟨hn, List.forall_mem_map.2 fun a mem => ⟨(ha a mem).1, ?_⟩⟩
  obtain ⟨name, _ | value⟩ := a
  · trivial
  · exact (ha _ mem).2 value rfl

/-! ## Braces -/

theorem isPlainText_cons {c : Char} {cs : List Char} (h : isPlainText (c :: cs) = true) :
    c ≠ '{' ∧ ¬ (c = '<' ∧ startsTag cs = true) ∧ isPlainText cs = true := by
  simp only [isPlainText, Bool.and_eq_true, bne_iff_ne] at h
  obtain ⟨⟨brace, tag⟩, others⟩ := h
  refine ⟨brace, ?_, others⟩
  rintro ⟨rfl, starts⟩
  rw [starts] at tag
  cases tag

theorem isPlainText_no_brace : ∀ {cs : List Char}, isPlainText cs = true → '{' ∉ cs
  | [], _ => List.not_mem_nil
  | c :: cs, h => by
    obtain ⟨brace, -, others⟩ := isPlainText_cons h
    rw [List.mem_cons, not_or]
    exact ⟨brace.symm, isPlainText_no_brace others⟩

theorem tagBody_no_brace {name : String} (hn : Page.isTagName name = true)
    {attrs : List (String × Option String)} (ha : ∀ a ∈ attrs, QuotedAttribute a) :
    '{' ∉ tagBody name attrs := by
  obtain ⟨-, -, -, -, chars⟩ := Page.isTagName_chars hn
  rw [tagBody, List.mem_append, not_or]
  refine ⟨fun brace => absurd (chars _ brace).1 (by decide), ?_⟩
  rw [List.mem_flatMap]
  rintro ⟨⟨name, value⟩, mem, brace⟩
  obtain ⟨named, quoted⟩ := ha _ mem
  obtain ⟨-, -, -, -, chars⟩ := isAttributeName_chars named
  have free : '{' ∉ name.toList := fun brace =>
    not_mem_of_attributeNameChar (chars _ brace) (by decide)
  rcases value with _ | value
  · simp [attributeSource, free] at brace
  · have inside : '{' ∉ value.toList := (quoted value rfl).2
    simp [attributeSource, free, inside] at brace

mutual

theorem Literal.no_brace : ∀ {l : Literal}, l.Made QuotedAttribute → '{' ∉ l.source
  | .text _, ⟨_, plain, _⟩ => isPlainText_no_brace plain
  | .declaration inside, ⟨free, _⟩ => by
    have inside : '{' ∉ inside := fun brace => free _ brace (by decide)
    simp [Literal.source, inside]
  | .element name attrs children, ⟨hn, ha, _, inner⟩ => by
    have children := Literals.no_brace inner
    have body := tagBody_no_brace hn ha
    have name : '{' ∉ name.toList := fun brace => body (by simp [tagBody, brace])
    rw [Literal.source]
    split <;> simp [body, children, name]

theorem Literals.no_brace : ∀ {ls : List Literal}, Literals.Made QuotedAttribute ls →
    '{' ∉ Literals.source ls
  | [], _ => List.not_mem_nil
  | _ :: _, ⟨first, _, others⟩ => by
    rw [Literals.source, List.mem_append, not_or]
    exact ⟨Literal.no_brace first, Literals.no_brace others⟩

end

end LiveTemplate
