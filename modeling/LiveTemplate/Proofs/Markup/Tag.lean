/-
Tags as a page writes them: a name in small letters, and attributes with a blank before each, whose
values stand in double quotes or are expressions in braces. Looking for the end of such a tag and
reading it go through the same text by different rules; they agree on where the tag and its values
end, and the tag is read as it stands, whatever follows it.
-/
import LiveTemplate.Markup.Tag
import LiveTemplate.Markup.Token
import LiveTemplate.Proofs.Delimiter.Enclosed
import LiveTemplate.Proofs.Expr.Lexing
import LiveTemplate.Proofs.Tree.Page

namespace LiveTemplate

open Text Markup

/-! ## Written tags -/

namespace Markup

/-- What follows the name of an attribute. -/
inductive Setting where
  | flag
  /-- A text in double quotes. -/
  | quoted (value : String)
  /-- An expression in braces. -/
  | braced (expr : List Char)

namespace Setting

/-- A setting as it is written. -/
def source : Setting → List Char
  | flag => []
  | quoted value => '=' :: '"' :: (value.toList ++ ['"'])
  | braced expr => '=' :: '{' :: (expr ++ ['}'])

/-- A value without a double quote, or an expression that is closed under strings and braces. -/
def WellFormed : Setting → Prop
  | flag => True
  | quoted value => '"' ∉ value.toList
  | braced expr => Delimiter.Enclosed none expr

instance : DecidablePred WellFormed
  | flag => inferInstanceAs (Decidable True)
  | quoted value => inferInstanceAs (Decidable ('"' ∉ value.toList))
  | braced expr => inferInstanceAs (Decidable (Delimiter.Enclosed none expr))

/-- What a setting at offset `pos` is read as. -/
def value (pos : Nat) : Setting → AttributeValue
  | flag => .flag
  | quoted value => .plain value
  | braced expr => .dynamic ⟨pos + 2, expr⟩

end Setting

/-- The setting that is read as a value. -/
def AttributeValue.setting : AttributeValue → Setting
  | .flag => .flag
  | .plain text => .quoted text
  | .dynamic region => .braced region.text

/-- An attribute with the blank before it. -/
def settingSource (a : String × Setting) : List Char := ' ' :: (a.1.toList ++ a.2.source)

/-- What attributes that are written from offset `pos` on are read as. -/
def attributesAt : Nat → List (String × Setting) → List Attribute
  | _, [] => []
  | pos, a :: rest =>
    let sign := pos + byteLength (' ' :: a.1.toList)
    let stop := pos + byteLength (settingSource a)
    ⟨a.1, a.2.value sign, pos + 1, stop⟩ :: attributesAt stop rest

/-- What stands before the `>` of a tag that closes itself. -/
def tagEnding (closesItself : Bool) : List Char := if closesItself then [' ', '/'] else []

/-- An opening tag as it is written. -/
structure OpenTag where
  name : String
  attrs : List (String × Setting)
  closesItself : Bool

namespace OpenTag

def WellFormed (t : OpenTag) : Prop :=
  Page.isTagName t.name = true ∧ ∀ a ∈ t.attrs, Page.isAttributeName a.1 = true ∧ a.2.WellFormed

instance (t : OpenTag) : Decidable t.WellFormed := inferInstanceAs (Decidable (_ ∧ _))

/-- The tag from its name on, without its end. -/
def body (t : OpenTag) : List Char :=
  t.name.toList ++ (t.attrs.flatMap settingSource ++ tagEnding t.closesItself)

def source (t : OpenTag) : List Char := '<' :: (t.body ++ ['>'])

/-- What the tag at offset `pos` is read as. -/
def tag (pos : Nat) (t : OpenTag) : Tag where
  name := t.name
  attributes := attributesAt (pos + byteLength ('<' :: t.name.toList)) t.attrs
  isClosing := false
  isSelfClosing := t.closesItself
  span := ⟨pos, pos + byteLength t.source⟩

end OpenTag

end Markup

/-! ## Characters of names -/

theorem not_blank_of_attributeNameChar {c : Char} (h : isAttributeNameChar c = true) :
    isBlank c = false := by
  rcases Bool.or_eq_true_iff.1 h with h | h
  · rw [eq_of_beq h]
    decide
  · exact Grammar.not_blank_of_namePart (Bool.or_eq_true_iff.2 (.inr h))

/-- Marks that stand in no name of an attribute. -/
def attributeMarks : List Char := [' ', '=', '/', '>', '"', '\'', '{', '}', '%']

theorem not_mem_of_attributeNameChar {c : Char} (h : isAttributeNameChar c = true) :
    c ∉ attributeMarks :=
  Page.not_mem_of_test (by decide +kernel) h

/-- The first character of an element's name is a letter, and all are small and can stand in a name. -/
theorem Page.isTagName_chars {name : String} (h : isTagName name = true) :
    ∃ c rest, name.toList = c :: rest ∧ isAsciiLetter c = true ∧
      ∀ d ∈ name.toList, isTagNameChar d = true ∧ isAsciiUpper d = false := by
  have small {c : Char} (hc : isSmallLetter c = true) :
      isAsciiLetter c = true ∧ isAsciiUpper c = false := by
    simp only [isSmallLetter, Bool.and_eq_true, decide_eq_true_eq] at hc
    refine ⟨by simp [isAsciiLetter, hc], ?_⟩
    have above : ¬ c ≤ 'Z' := fun hz => absurd (le_trans hc.1 hz) (by decide)
    simp [isAsciiUpper, above]
  unfold isTagName at h
  split at h
  case h_1 => cases h
  case h_2 c rest chars =>
    rw [Bool.and_eq_true, List.all_eq_true] at h
    refine ⟨c, rest, chars, (small h.1).1, ?_⟩
    rw [chars, List.forall_mem_cons]
    refine ⟨⟨by simp [isTagNameChar, small h.1], (small h.1).2⟩, fun d hd => ?_⟩
    have part := h.2 d hd
    simp only [isSmallNameChar, Bool.or_eq_true, beq_iff_eq] at part
    rcases part with ((letter | digit) | rfl) | rfl
    · exact ⟨by simp [isTagNameChar, small letter], (small letter).2⟩
    · refine ⟨by simp [isTagNameChar, digit], ?_⟩
      simp only [isAsciiDigit, Bool.and_eq_true, decide_eq_true_eq] at digit
      have below : ¬ 'A' ≤ d := fun ha => absurd (le_trans ha digit.2) (by decide)
      simp [isAsciiUpper, below]
    · decide
    · decide

/-! ## Regions -/

namespace Region

theorem drop_append (pos : Nat) (a b : List Char) :
    (Region.mk pos (a ++ b)).drop a.length = ⟨pos + byteLength a, b⟩ := by
  simp [drop]

theorem drop_cons (pos : Nat) (c : Char) (rest : List Char) :
    (Region.mk pos (c :: rest)).drop 1 = ⟨pos + c.utf8Size, rest⟩ :=
  drop_append pos [c] rest

theorem dropWhile_of_head {p : Char → Bool} {cs : List Char} (h : ∀ c ∈ cs.head?, p c = false)
    (pos : Nat) : (Region.mk pos cs).dropWhile p = ⟨pos, cs⟩ := by
  cases cs with
  | nil => rfl
  | cons c cs => simp [dropWhile, drop, h c rfl, byteLength]

theorem dropWhile_one {p : Char → Bool} {c : Char} {cs : List Char} (hc : p c = true)
    (h : ∀ d ∈ cs.head?, p d = false) (pos : Nat) :
    (Region.mk pos (c :: cs)).dropWhile p = ⟨pos + c.utf8Size, cs⟩ := by
  cases cs with
  | nil => simp [dropWhile, drop, hc, byteLength]
  | cons d cs => simp [dropWhile, drop, hc, h d rfl, byteLength]

end Region

namespace Markup

/-! ## Attributes -/

section

variable {name : String} {more : List Char}

/-- What may stand behind an attribute: nothing, or a blank and something that is no sign of a value. -/
def EndsAttribute (more : List Char) : Prop :=
  more = [] ∨ ∃ c rest, more = ' ' :: c :: rest ∧ isBlank c = false ∧ c ≠ '='

theorem EndsAttribute.head (h : EndsAttribute more) : ∀ c ∈ more.head?, c = ' ' := by
  rcases h with rfl | ⟨d, rest, rfl, -⟩
  · simp
  · simp

theorem isAttributeName_chars (h : Page.isAttributeName name = true) :
    ∃ c rest, name.toList = c :: rest ∧ isAttributeNameChar c = true ∧
      ∀ d ∈ name.toList, isAttributeNameChar d = true := by
  obtain ⟨c, rest, chars⟩ := List.exists_cons_of_ne_nil (Page.IsName.of_attribute h).nonempty
  simp only [Page.isAttributeName, Bool.and_eq_true, List.all_eq_true] at h
  exact ⟨c, rest, chars, h.2 c (by simp [chars]), h.2⟩

/-- The name at the front of an attribute is all that is read as its name. -/
theorem takeWhile_name (hn : Page.isAttributeName name = true)
    (hm : ∀ c ∈ more.head?, isAttributeNameChar c = false) :
    (name.toList ++ more).takeWhile isAttributeNameChar = name.toList := by
  obtain ⟨-, -, -, -, chars⟩ := isAttributeName_chars hn
  rw [List.takeWhile_append_of_pos chars]
  rcases more with _ | ⟨c, more⟩
  · simp
  · simp [hm c (by simp)]

/-- A name without a value. -/
theorem readAttribute_flag (hn : Page.isAttributeName name = true) (hm : EndsAttribute more)
    (pos : Nat) (tail : List Char) :
    readAttribute ⟨pos, name.toList ++ more⟩ tail =
      .ok (⟨name, .flag, pos, pos + byteLength name.toList⟩, ⟨pos + byteLength name.toList, more⟩) := by
  have nonempty : name.toList.isEmpty = false := by
    simpa using (Page.IsName.of_attribute hn).nonempty
  have front : (name.toList ++ more).takeWhile isAttributeNameChar = name.toList := by
    refine takeWhile_name hn fun c hc => Bool.eq_false_iff.2 fun named => ?_
    exact not_mem_of_attributeNameChar named (by simp [attributeMarks, hm.head c hc])
  have joined : ((more.head?.map fun c => isNameJunk c && c != '/').getD false) = false := by
    rcases hm with rfl | ⟨d, rest, rfl, -⟩ <;> rfl
  -- the blanks before the next attribute are skipped in search of a sign
  have sign (pos : Nat) : (((Region.mk pos more).dropWhile isBlank).text.head? != some '=') = true := by
    rw [Region.dropWhile_text, bne_iff_ne]
    rcases hm with rfl | ⟨d, rest, rfl, solid, other⟩
    · simp
    · rw [List.dropWhile_cons_of_pos (by decide), List.dropWhile_cons_of_neg (by simp [solid])]
      simpa using other
  unfold readAttribute
  simp only [front, Region.drop_append, nonempty, joined, sign, Bool.false_eq_true, if_false,
    if_true, String.ofList_toList]

/-- A name with a value in quotes or braces. -/
theorem readAttribute_sign (hn : Page.isAttributeName name = true) {c : Char} (hc : isBlank c = false)
    (pos : Nat) (rest tail : List Char) :
    readAttribute ⟨pos, name.toList ++ '=' :: c :: rest⟩ tail =
      let value : Region := ⟨pos + byteLength (name.toList ++ ['=']), c :: rest⟩
      let finish (found : AttributeValue × Region) : Attribute × Region :=
        (⟨name, found.1, pos, found.2.start⟩, found.2)
      if c == '"' || c == '\'' then (quotedValue c value tail).map finish
      else if c == '{' then (bracedValue value tail).map finish
      else .ok (finish (bareValue value)) := by
  have nonempty : name.toList.isEmpty = false := by
    simpa using (Page.IsName.of_attribute hn).nonempty
  have front : (name.toList ++ '=' :: c :: rest).takeWhile isAttributeNameChar = name.toList := by
    refine takeWhile_name hn fun d hd => Bool.eq_false_iff.2 fun named => ?_
    exact not_mem_of_attributeNameChar named (by simp [attributeMarks, ← Option.some.inj hd])
  have sign (pos : Nat) : (Region.mk pos ('=' :: c :: rest)).dropWhile isBlank =
      ⟨pos, '=' :: c :: rest⟩ :=
    Region.dropWhile_of_head (by rintro _ ⟨⟩; rfl) pos
  have value (pos : Nat) : (Region.mk pos (c :: rest)).dropWhile isBlank = ⟨pos, c :: rest⟩ :=
    Region.dropWhile_of_head (by rintro _ ⟨⟩; exact hc) pos
  have joined : (isNameJunk '=' && '=' != '/') = false := by decide
  have start : pos + byteLength name.toList + '='.utf8Size =
      pos + byteLength (name.toList ++ ['=']) := by
    rw [Delimiter.byteLength_append, Nat.add_assoc]
    rfl
  unfold readAttribute
  simp only [front, Region.drop_append, nonempty, List.head?_cons, Option.map_some, Option.getD_some,
    joined, sign, bne_self_eq_false, Region.drop_cons, value, start, Bool.false_eq_true, if_false,
    String.ofList_toList]

theorem quotedValue_written {value : String} (h : '"' ∉ value.toList) (pos : Nat)
    (more tail : List Char) :
    quotedValue '"' ⟨pos, '"' :: (value.toList ++ '"' :: more)⟩ tail =
      .ok (.plain value, ⟨pos + byteLength ('"' :: (value.toList ++ ['"'])), more⟩) := by
  -- the first quote is the one behind the value, so the text behind the tag is not asked
  have inside : (value.toList ++ '"' :: more).takeWhile (· != '"') = value.toList := by
    rw [List.takeWhile_append_of_pos, List.takeWhile_cons_of_neg (by simp), List.append_nil]
    intro c hc
    rw [bne_iff_ne]
    rintro rfl
    exact h hc
  have whole : '"' :: (value.toList ++ '"' :: more) = '"' :: (value.toList ++ ['"']) ++ more := by
    simp
  have behind : (Region.mk pos ('"' :: (value.toList ++ '"' :: more))).drop
      (value.toList.length + 2) = ⟨pos + byteLength ('"' :: (value.toList ++ ['"'])), more⟩ := by
    rw [whole, ← Region.drop_append]
    simp
  unfold quotedValue
  simp only [Region.drop_cons, inside, behind, String.ofList_toList]
  rw [if_pos (by simp)]

theorem bracedValue_written {expr : List Char} (h : Delimiter.Enclosed none expr) (pos : Nat)
    (more tail : List Char) :
    bracedValue ⟨pos, '{' :: (expr ++ '}' :: more)⟩ tail =
      .ok (.dynamic ⟨pos + 1, expr⟩, ⟨pos + byteLength ('{' :: (expr ++ ['}'])), more⟩) := by
  -- the scan knows no end of the tag, but it stops at the brace behind the expression
  have found : Delimiter.closeBrace pos ((expr ++ '}' :: more).append tail) =
      .ok (expr ++ ['}'], more ++ tail) := by
    rw [List.append_eq, List.append_assoc]
    exact (Delimiter.closeBrace_eq_iff pos expr (more ++ tail)).2 h
  have whole : '{' :: (expr ++ '}' :: more) = '{' :: (expr ++ ['}']) ++ more := by
    simp
  have behind : (Region.mk pos ('{' :: (expr ++ '}' :: more))).drop ((expr ++ ['}']).length + 1) =
      ⟨pos + byteLength ('{' :: (expr ++ ['}'])), more⟩ := by
    rw [whole, ← Region.drop_append]
    simp
  unfold bracedValue
  simp only [Region.drop_cons, found, behind, List.dropLast_concat]
  rw [if_pos (by simp)]

/-- An attribute at the front of a region is read, whatever follows the tag. -/
theorem readAttribute_written (hn : Page.isAttributeName name = true) {setting : Setting}
    (hs : setting.WellFormed) (hm : EndsAttribute more) (pos : Nat) (tail : List Char) :
    readAttribute ⟨pos, name.toList ++ (setting.source ++ more)⟩ tail =
      .ok (⟨name, setting.value (pos + byteLength name.toList), pos,
          pos + byteLength (name.toList ++ setting.source)⟩,
        ⟨pos + byteLength (name.toList ++ setting.source), more⟩) := by
  -- the value and what follows it are read behind the sign
  have stop (value : List Char) : pos + byteLength (name.toList ++ ['=']) + byteLength value =
      pos + byteLength (name.toList ++ '=' :: value) := by
    rw [Nat.add_assoc, ← Delimiter.byteLength_append, List.append_assoc, List.singleton_append]
  cases setting with
  | flag =>
    rw [Setting.source, List.nil_append, List.append_nil]
    exact readAttribute_flag hn hm pos tail
  | quoted value =>
    have whole : name.toList ++ ((Setting.quoted value).source ++ more) =
        name.toList ++ '=' :: '"' :: (value.toList ++ '"' :: more) := by
      simp [Setting.source]
    rw [whole, readAttribute_sign hn (by decide)]
    simp only [beq_self_eq_true, Bool.true_or, if_true, quotedValue_written hs, stop]
    rfl
  | braced expr =>
    have whole : name.toList ++ ((Setting.braced expr).source ++ more) =
        name.toList ++ '=' :: '{' :: (expr ++ '}' :: more) := by
      simp [Setting.source]
    have start : pos + byteLength (name.toList ++ ['=']) + 1 = pos + byteLength name.toList + 2 := by
      rw [Delimiter.byteLength_append]
      rfl
    rw [whole, readAttribute_sign hn (by decide)]
    simp only [show ('{' == '"') = false from rfl, show ('{' == '\'') = false from rfl, Bool.or_self,
      Bool.false_eq_true, if_false, beq_self_eq_true, if_true, bracedValue_written hs, stop, start]
    rfl

end

theorem settingSource_length (a : String × Setting) : 1 ≤ (settingSource a).length := by
  simp [settingSource]

section

variable {attrs : List (String × Setting)} {closesItself : Bool}

/-- Behind an attribute stand others and the end of the tag. -/
theorem endsAttribute_attributes
    (h : ∀ a ∈ attrs, Page.isAttributeName a.1 = true ∧ a.2.WellFormed) :
    EndsAttribute (attrs.flatMap settingSource ++ tagEnding closesItself) := by
  rcases attrs with _ | ⟨⟨name, setting⟩, attrs⟩
  · cases closesItself
    · exact .inl rfl
    · exact .inr ⟨'/', [], rfl, by decide, by decide⟩
  · obtain ⟨c, rest, chars, first, -⟩ := isAttributeName_chars (h (name, setting) (by simp)).1
    refine .inr ⟨c, rest ++ (setting.source ++ (attrs.flatMap settingSource ++ tagEnding closesItself)),
      ?_, not_blank_of_attributeNameChar first, ?_⟩
    · simp [settingSource, chars]
    · rintro rfl
      exact not_mem_of_attributeNameChar first (by decide)

/-- The attributes of a tag are read one after the other, up to its end. -/
theorem readAttributes_written (ha : ∀ a ∈ attrs, Page.isAttributeName a.1 = true ∧ a.2.WellFormed)
    {fuel : Nat} (hf : attrs.length < fuel) (pos : Nat) (tail : List Char) :
    readAttributes fuel ⟨pos, attrs.flatMap settingSource ++ tagEnding closesItself⟩ tail =
      .ok (attributesAt pos attrs, closesItself) := by
  induction attrs generalizing fuel pos with
  | nil =>
    obtain ⟨fuel, rfl⟩ := Nat.exists_eq_succ_of_ne_zero (Nat.ne_of_gt hf)
    cases closesItself <;> rfl
  | cons a attrs ih =>
    obtain ⟨fuel, rfl⟩ := Nat.exists_eq_succ_of_ne_zero (Nat.ne_of_gt (Nat.zero_lt_of_lt hf))
    obtain ⟨name, setting⟩ := a
    obtain ⟨⟨named, formed⟩, others⟩ := List.forall_mem_cons.1 ha
    generalize hm : attrs.flatMap settingSource ++ tagEnding closesItself = more at ih
    have ends : EndsAttribute more := hm ▸ endsAttribute_attributes others
    obtain ⟨c, rest, chars, first, -⟩ := isAttributeName_chars named
    have whole : ((name, setting) :: attrs).flatMap settingSource ++ tagEnding closesItself =
        ' ' :: (name.toList ++ (setting.source ++ more)) := by
      rw [List.flatMap_cons, List.append_assoc, hm]
      simp [settingSource]
    -- only the blank before the name is skipped
    have skipped : (Region.mk pos (' ' :: (name.toList ++ (setting.source ++ more)))).dropWhile isBlank =
        ⟨pos + 1, name.toList ++ (setting.source ++ more)⟩ := by
      refine Region.dropWhile_one (by decide) (fun d hd => ?_) pos
      rw [chars] at hd
      rw [← Option.some.inj hd]
      exact not_blank_of_attributeNameChar first
    have sign : pos + 1 + byteLength name.toList = pos + byteLength (' ' :: name.toList) :=
      Nat.add_assoc pos 1 _
    have stop : pos + 1 + byteLength (name.toList ++ setting.source) =
        pos + byteLength (settingSource (name, setting)) :=
      Nat.add_assoc pos 1 _
    have read := readAttribute_written named formed ends (pos + 1) tail
    rw [sign, stop] at read
    rw [whole, readAttributes]
    dsimp only
    rw [skipped]
    split
    case h_1 empty =>
      rw [chars] at empty
      cases empty
    case h_2 alone =>
      -- a slash alone would end the tag, but no name begins with one
      rw [chars, List.cons_append, List.cons.injEq] at alone
      rw [alone.1] at first
      exact absurd (by decide) (not_mem_of_attributeNameChar first)
    case h_3 =>
      rw [read]
      show (readAttributes fuel ⟨pos + byteLength (settingSource (name, setting)), more⟩ tail >>= _) = _
      rw [ih others (Nat.lt_of_succ_lt_succ hf)]
      rfl

end

/-! ## Tags -/

theorem takeWhile_tagName {name : String} (hn : Page.isTagName name = true) {more : List Char}
    (hm : ∀ c ∈ more.head?, isTagNameChar c = false) :
    (name.toList ++ more).takeWhile isTagNameChar = name.toList := by
  obtain ⟨-, -, -, -, chars⟩ := Page.isTagName_chars hn
  rw [List.takeWhile_append_of_pos fun c hc => (chars c hc).1]
  rcases more with _ | ⟨c, more⟩
  · simp
  · simp [hm c (by simp)]

theorem elementName_small {name : String} (hn : Page.isTagName name = true) (pos : Nat) :
    elementName ⟨pos, name.toList⟩ = .ok name := by
  obtain ⟨-, -, -, -, chars⟩ := Page.isTagName_chars hn
  have small : name.toList.any isAsciiUpper = false := by
    rw [List.any_eq_false]
    intro c hc
    simp [(chars c hc).2]
  simp [elementName, small, Region.toString]

theorem attributes_length : ∀ attrs : List (String × Setting),
    attrs.length ≤ (attrs.flatMap settingSource).length
  | [] => Nat.le_refl _
  | a :: attrs => by
    have ih := attributes_length attrs
    have one := settingSource_length a
    rw [List.flatMap_cons, List.length_append, List.length_cons]
    omega

namespace OpenTag

variable {t : OpenTag}

/-- The name at the front of a tag, and the attributes behind it. -/
theorem WellFormed.body_read (h : t.WellFormed) (pos : Nat) (tail : List Char) :
    (t.body.head?.map isAsciiLetter).getD false = true ∧
      (t.body.takeWhile isTagNameChar).length = t.name.toList.length ∧
      elementName ((Region.mk pos t.body).take t.name.toList.length) = .ok t.name ∧
      readAttributes (t.body.length + 1) ((Region.mk pos t.body).drop t.name.toList.length) tail =
        .ok (attributesAt (pos + byteLength t.name.toList) t.attrs, t.closesItself) := by
  obtain ⟨c, rest, start, letter, -⟩ := Page.isTagName_chars h.1
  have behind : ∀ d ∈ (t.attrs.flatMap settingSource ++ tagEnding t.closesItself).head?,
      isTagNameChar d = false := by
    intro d hd
    rw [(endsAttribute_attributes h.2).head d hd]
    decide
  refine ⟨?_, ?_, ?_, ?_⟩
  · rw [body, start]
    simpa using letter
  · rw [body, takeWhile_tagName h.1 behind]
  · have front : (Region.mk pos t.body).take t.name.toList.length = ⟨pos, t.name.toList⟩ := by
      rw [Region.take, body, List.take_left]
    rw [front, elementName_small h.1]
  · have enough : t.attrs.length < t.body.length + 1 := by
      have each := attributes_length t.attrs
      rw [body, List.length_append, List.length_append]
      omega
    rw [body, Region.drop_append]
    exact readAttributes_written h.2 enough _ tail

/-- A written tag is read as it stands, whatever follows it. -/
theorem WellFormed.parse (h : t.WellFormed) (pos : Nat) (tail : List Char) :
    Tag.parse ⟨pos, t.source⟩ tail = .ok (t.tag pos) := by
  obtain ⟨letter, length, element, read⟩ := h.body_read (pos + 1) tail
  obtain ⟨c, rest, start, first, -⟩ := Page.isTagName_chars h.1
  have notClosing : (t.body.head? == some '/') = false := by
    rw [body, start, List.cons_append, List.head?_cons, beq_eq_false_iff_ne]
    intro slash
    rw [Option.some.inj slash] at first
    cases first
  unfold Tag.parse
  simp only [source, List.drop_succ_cons, List.drop_zero, List.dropLast_concat, notClosing,
    Bool.false_eq_true, if_false, letter, Bool.not_true, length, element]
  show (readAttributes _ _ tail >>= _) = _
  rw [read, Nat.add_assoc]
  rfl

end OpenTag

/-- A closing tag is read as it stands. -/
theorem parse_closeTag (pos : Nat) {name : String} (hn : Page.isTagName name = true) :
    ∃ tag : Tag, (∀ tail, Tag.parse ⟨pos, '<' :: '/' :: (name.toList ++ ['>'])⟩ tail = .ok tag) ∧
      tag.name = name ∧ tag.isClosing = true := by
  -- behind its slash it is like an opening tag without attributes
  have whole : OpenTag.body ⟨name, [], false⟩ = name.toList :=
    List.append_nil _
  have h : OpenTag.WellFormed ⟨name, [], false⟩ := ⟨hn, List.forall_mem_nil _⟩
  refine ⟨⟨name, [], true, false,
    (Region.mk pos ('<' :: '/' :: (name.toList ++ ['>']))).span⟩, fun tail => ?_, rfl, rfl⟩
  obtain ⟨letter, length, element, read⟩ := h.body_read (pos + 1 + '/'.utf8Size) tail
  rw [whole] at letter length element read
  have inside : ('/' :: (name.toList ++ ['>'])).dropLast = '/' :: name.toList := by
    rw [← List.cons_append, List.dropLast_concat]
  unfold Tag.parse
  simp only [List.drop_succ_cons, List.drop_zero, inside, List.head?_cons, beq_self_eq_true,
    if_true, Region.drop_cons, letter, Bool.not_true, Bool.false_eq_true, if_false, length, element]
  show (readAttributes _ _ tail >>= _) = _
  rw [read]
  rfl

end Markup

/-! ## The ends of tags -/

namespace Delimiter

theorem close_tag (opened : Nat) (frames : List Frame) (pos : Nat) (c : Char) (rest : List Char) :
    close (.tag opened :: frames) pos (c :: rest) =
      (close (step pos c (.tag opened) frames) (pos + c.utf8Size) rest).map (prepend [c]) :=
  close_cons (by simp) frames pos c rest

theorem close_value (opened : Nat) (mark : Char) (frames : List Frame) (pos : Nat) (c : Char)
    (rest : List Char) :
    close (.value opened mark :: frames) pos (c :: rest) =
      (close (step pos c (.value opened mark) frames) (pos + c.utf8Size) rest).map
        (prepend [c]) :=
  close_cons (by simp) frames pos c rest

/-- Characters that neither end a tag nor open something in it. -/
theorem passes_tag (opened : Nat) : ∀ {cs : List Char}, (∀ c ∈ cs, c ∉ ['>', '"', '\'', '{']) →
    Passes (.tag opened) cs
  | [], _ => .nil _
  | c :: cs, h => by
    refine Passes.append (a := [c]) ?_ (passes_tag opened fun d hd => h d (by simp [hd]))
    intro frames pos rest
    have free := h c (by simp)
    simp only [List.mem_cons, not_or] at free
    rw [List.singleton_append, close_tag]
    simp [step, free, byteLength]

/-- A value up to its closing quote. -/
theorem close_value_quote (opened : Nat) (mark : Char) (frames : List Frame) (rest : List Char) :
    ∀ (value : List Char) (pos : Nat), mark ∉ value →
      close (.value opened mark :: frames) pos (value ++ mark :: rest) =
        (close frames (pos + byteLength (value ++ [mark])) rest).map (prepend (value ++ [mark]))
  | [], pos, _ => by
    rw [List.nil_append, close_value]
    simp [step, byteLength]
  | c :: value, pos, h => by
    have other : c ≠ mark := fun hc => h (by simp [hc])
    rw [List.cons_append, close_value, step, if_neg (by simpa using other),
      close_value_quote opened mark frames rest value _ fun hv => h (by simp [hv]),
      map_prepend_prepend, Nat.add_assoc]
    rfl

theorem passes_tag_value (opened : Nat) {mark : Char} (hm : mark = '"' ∨ mark = '\'')
    {value : List Char} (h : mark ∉ value) :
    Passes (.tag opened) (mark :: (value ++ [mark])) := by
  intro frames pos rest
  have quote : step pos mark (.tag opened) frames = .value pos mark :: .tag opened :: frames := by
    rcases hm with rfl | rfl <;> simp [step]
  rw [List.cons_append, List.append_assoc, List.singleton_append, close_tag, quote,
    close_value_quote _ _ _ _ _ _ h, map_prepend_prepend, byteLength, Nat.add_assoc]
  rfl

/-- An expression in braces. -/
theorem passes_tag_expr (opened : Nat) {expr : List Char} (h : Enclosed none expr) :
    Passes (.tag opened) ('{' :: (expr ++ ['}'])) := by
  intro frames pos rest
  have brace : step pos '{' (.tag opened) frames = .brace pos 0 :: .tag opened :: frames := by
    simp [step]
  have closing (p : Nat) : step p '}' (.brace pos 0) (.tag opened :: frames) = .tag opened :: frames :=
    rfl
  rw [List.cons_append, List.append_assoc, List.singleton_append, close_tag, brace,
    h.goneOver pos 0, close_brace, closing]
  simp only [map_prepend_prepend]
  congr 2
  simp only [byteLength, byteLength_append]
  omega

theorem passes_setting (opened : Nat) {setting : Setting} (h : setting.WellFormed) :
    Passes (.tag opened) setting.source := by
  have sign : Passes (.tag opened) ['='] := passes_tag opened (by simp)
  cases setting with
  | flag => exact .nil _
  | quoted value => exact sign.append (passes_tag_value opened (.inl rfl) h)
  | braced expr => exact sign.append (passes_tag_expr opened h)

theorem passes_attributes (opened : Nat) : ∀ {attrs : List (String × Setting)},
    (∀ a ∈ attrs, Page.isAttributeName a.1 = true ∧ a.2.WellFormed) →
      Passes (.tag opened) (attrs.flatMap settingSource)
  | [], _ => .nil _
  | (name, setting) :: attrs, h => by
    obtain ⟨⟨named, formed⟩, others⟩ := List.forall_mem_cons.1 h
    obtain ⟨-, -, -, -, chars⟩ := isAttributeName_chars named
    have blank : Passes (.tag opened) [' '] := passes_tag opened (by simp)
    have among : ['>', '"', '\'', '{'] ⊆ attributeMarks := by decide
    have name : Passes (.tag opened) name.toList :=
      passes_tag opened fun c hc mark => not_mem_of_attributeNameChar (chars c hc) (among mark)
    rw [List.flatMap_cons]
    exact (blank.append (name.append (passes_setting opened formed))).append
      (passes_attributes opened others)

/-- The body of an opening tag has no end inside of it. -/
theorem passes_body (opened : Nat) {t : OpenTag} (h : t.WellFormed) :
    Passes (.tag opened) t.body := by
  obtain ⟨-, -, -, -, chars⟩ := Page.isTagName_chars h.1
  have name : Passes (.tag opened) t.name.toList :=
    passes_tag opened fun c hc => Page.not_mem_of_test (by decide) (chars c hc).1
  have ending : Passes (.tag opened) (tagEnding t.closesItself) := by
    refine passes_tag opened ?_
    cases t.closesItself <;> simp [tagEnding]
  exact name.append ((passes_attributes opened h.2).append ending)

/-- Behind the body of a tag its end is found. -/
theorem closeTag_body {opened : Nat} {body : List Char} (h : Passes (.tag opened) body)
    (rest : List Char) : closeTag opened (body ++ '>' :: rest) = .ok (body ++ ['>'], rest) := by
  rw [closeTag, h, close_tag]
  simp [step, close, prepend, Except.map]

end Delimiter

/-! ## Reading back -/

namespace Markup

/-- A tag is cut off at its end, whatever follows it. -/
theorem tokensFrom_tag {pos : Nat} {body rest : List Char} (hb : Delimiter.Passes (.tag pos) body)
    (starts : startsTag (body ++ '>' :: rest) = true)
    (comment : ¬ ['!', '-', '-'] <+: body ++ '>' :: rest) (fuel : Nat) :
    tokensFrom (fuel + 1) pos ('<' :: (body ++ ['>']) ++ rest) =
      let others := tokensFrom fuel (pos + byteLength ('<' :: (body ++ ['>']))) rest
      (.tag ⟨pos, '<' :: (body ++ ['>'])⟩ :: others.1, others.2) := by
  have comment : ['!', '-', '-'].isPrefixOf (body ++ '>' :: rest) = false := by
    rw [← Bool.not_eq_true, List.isPrefixOf_iff_prefix]
    exact comment
  have whole : '<' :: (body ++ ['>']) ++ rest = '<' :: (body ++ '>' :: rest) := by simp
  have dropped : ('<' :: (body ++ '>' :: rest)).drop ('<' :: (body ++ ['>'])).length = rest := by
    rw [← whole, List.drop_left]
  -- neither a guard nor a brace nor a comment begins here
  rw [whole, tokensFrom]
  simp only [beq_self_eq_true, Bool.true_and, comment, starts, Delimiter.closeTag_body hb, dropped,
    show ('<' == '\\') = false from rfl, show ('<' == '{') = false from rfl, Bool.false_and,
    Bool.false_eq_true, if_false, if_true]

/-- The lexer stops at the end of a written tag, at any place and before anything. -/
theorem OpenTag.WellFormed.tokensFrom {t : OpenTag} (h : t.WellFormed) (fuel pos : Nat)
    (rest : List Char) :
    Markup.tokensFrom (fuel + 1) pos (t.source ++ rest) =
      let others := Markup.tokensFrom fuel (pos + byteLength t.source) rest
      (.tag ⟨pos, t.source⟩ :: others.1, others.2) := by
  obtain ⟨c, chars, start, letter, -⟩ := Page.isTagName_chars h.1
  refine tokensFrom_tag (Delimiter.passes_body pos h) ?_ ?_ fuel
  · rw [body, start]
    simp [startsTag, letter]
  · rw [body, start, List.cons_append, List.cons_append, List.cons_prefix_cons]
    rintro ⟨rfl, -⟩
    cases letter

theorem attributesAt_setting : ∀ (pos : Nat) (attrs : List (String × Setting)),
    (attributesAt pos attrs).map (fun a => (a.name, a.value.setting)) = attrs
  | _, [] => rfl
  | pos, (name, setting) :: rest => by
    have same : (setting.value (pos + byteLength (' ' :: name.toList))).setting = setting := by
      cases setting <;> rfl
    rw [attributesAt, List.map_cons, same, attributesAt_setting _ rest]

/-- The expressions of attributes are where they are written. -/
theorem attributesAt_within {text : List Char} : ∀ {attrs : List (String × Setting)} {pos : Nat},
    Region.Within text ⟨pos, attrs.flatMap settingSource⟩ →
      ∀ a ∈ attributesAt pos attrs, ∀ r, a.value = .dynamic r → r.Within text
  | [], _, _ => by simp [attributesAt]
  | (name, setting) :: attrs, pos, h => by
    rw [List.flatMap_cons] at h
    rw [attributesAt, List.forall_mem_cons]
    refine ⟨fun r hr => ?_, attributesAt_within h.right⟩
    cases setting with
    | flag => cases hr
    | quoted value => cases hr
    | braced expr =>
      cases hr
      have whole : settingSource (name, .braced expr) =
          (' ' :: name.toList) ++ (['=', '{'] ++ (expr ++ ['}'])) := rfl
      have inside := h.left
      rw [whole] at inside
      exact inside.right.right.left

/-- A written tag is cut off as it is, wherever the lexer comes to it and whatever follows it, and it
is read as it stands. The attributes are the written ones, in their order and with their values, and
each expression is found where it is written. -/
theorem OpenTag.read_back {t : OpenTag} (h : t.WellFormed) (before rest : List Char) :
    let pos := byteLength before
    (∀ fuel, tokensFrom (fuel + 1) pos (t.source ++ rest) =
      let others := tokensFrom fuel (pos + byteLength t.source) rest
      (.tag ⟨pos, t.source⟩ :: others.1, others.2)) ∧
    (∀ tail, Tag.parse ⟨pos, t.source⟩ tail = .ok (t.tag pos)) ∧
    (t.tag pos).attributes.map (fun a => (a.name, a.value.setting)) = t.attrs ∧
    ∀ a ∈ (t.tag pos).attributes, ∀ r, a.value = .dynamic r →
      r.Within (before ++ (t.source ++ rest)) := by
  intro pos
  refine ⟨fun fuel => h.tokensFrom fuel pos rest, h.parse pos, attributesAt_setting _ _,
    attributesAt_within ?_⟩
  have whole : Region.Within (before ++ (t.source ++ rest)) ⟨pos, t.source⟩ :=
    ⟨rest, before, rfl, rfl⟩
  generalize before ++ (t.source ++ rest) = text at whole ⊢
  have split : t.source = ('<' :: t.name.toList) ++
      (t.attrs.flatMap settingSource ++ (tagEnding t.closesItself ++ ['>'])) := by
    simp [OpenTag.source, OpenTag.body]
  rw [split] at whole
  exact whole.right.left

/-- Values with the ends of tags and slashes in them, and an expression with a brace in a string and a
template string in another one, before a tag without its end. -/
theorem OpenTag.read_back_nested :
    let expr := "go(\x7ba: '\x7d>'\x7d, `\"$\x7b`$\x7bx\x7d>`\x7d/`)"
    let t : OpenTag := ⟨"x-card", [("título", .quoted "a > b / \x7bc\x7d 'd' \\"), ("hidden", .flag),
      ("on-pick", .braced expr.toList), ("b", .quoted "")], true⟩
    let tag : Tag := ⟨"x-card", [⟨"título", .plain "a > b / \x7bc\x7d 'd' \\", 10, 37⟩,
      ⟨"hidden", .flag, 38, 44⟩, ⟨"on-pick", .dynamic ⟨54, expr.toList⟩, 45, 84⟩,
      ⟨"b", .plain "", 85, 89⟩], false, true, 2, 92⟩
    let rest := "<p q=\"".toList
    t.WellFormed ∧ String.ofList t.source =
        "<x-card título=\"a > b / \x7bc\x7d 'd' \\\" hidden on-pick=\x7b" ++ expr ++ "\x7d b=\"\" />" ∧
      (∀ fuel, tokensFrom (fuel + 1) 2 (t.source ++ rest) =
        let others := tokensFrom fuel 92 rest
        (.tag ⟨2, t.source⟩ :: others.1, others.2)) ∧
      ∀ tail, Tag.parse ⟨2, t.source⟩ tail = .ok tag := by
  intro expr t tag rest
  have formed : t.WellFormed := by decide +kernel
  have same : t.tag 2 = tag := by decide +kernel
  obtain ⟨cut, parsed, -⟩ := OpenTag.read_back formed ['é'] rest
  have stop : byteLength ['é'] + byteLength t.source = 92 := by decide +kernel
  refine ⟨formed, by decide +kernel, fun fuel => ?_, fun tail => ?_⟩
  · have here := cut fuel
    rw [stop] at here
    exact here
  · rw [← same]
    exact parsed tail

end Markup

end LiveTemplate
