/-
The two dialects correspond segment by segment. A template of the older dialect that is put
together from texts and tags is converted by converting each of them on its own: no pass takes the
end of one segment and the beginning of the next for a bracket.
-/
import LiveTemplate.Proofs.DoubleBrace.Passes
import LiveTemplate.Proofs.Expr.Lexing
import LiveTemplate.Proofs.Text.Trimming

namespace LiveTemplate.DoubleBrace

open Text Grammar

/-! ## Segments -/

/-- The characters of brackets and strings. -/
def reserved : List Char := ['{', '}', '\'', '"', '%']

/-- A part of a tag: not empty, without blanks at its ends, and free of reserved characters. -/
def IsPart (cs : List Char) : Prop :=
  cs ≠ [] ∧ trim cs = cs ∧ ∀ c ∈ cs, c ∉ reserved

-- the characters of the text are tried, not all characters there are
instance (cs : List Char) : Decidable (IsPart cs) :=
  let _ := List.decidableBAll (· ∉ reserved) cs
  inferInstanceAs (Decidable (_ ∧ _ ∧ _))

/-- A part that no sign and no word turns into another kind of tag. -/
def IsExpression (cs : List Char) : Prop :=
  IsPart cs ∧ cs.head? ∉ ['#', '/', '>', '!', '&'].map some ∧
    cs.takeWhile (!isBlank ·) ∉ ["html".toList, "json".toList, "else".toList]

instance (cs : List Char) : Decidable (IsExpression cs) := inferInstanceAs (Decidable (_ ∧ _ ∧ _))

/-- Names with commas between them, none of which is `as`. -/
def IsBinding (cs : List Char) : Prop :=
  IsPart cs ∧ ∀ name ∈ cs.splitOn ',',
    isName (String.ofList (trim name)) = true ∧ trim name ≠ "as".toList

instance (cs : List Char) : Decidable (IsBinding cs) := inferInstanceAs (Decidable (_ ∧ _))

/-- The words before the condition or the head of a block. -/
def openings : List String := ["#if", "#unless", "#for"]

/-- The words that end a block. -/
def closings : List String := ["/if", "/unless", "/each", "/for"]

/-- The tags that both dialects have. -/
inductive Tag where
  | expression (e : List Char)
  /-- The head of a condition or of a loop with its own syntax. -/
  | opening (keyword : String) (c : List Char)
  /-- The head of a loop, whose variables may stand between bars. -/
  | each (c binding : List Char) (bars : Bool)
  | eachItem (c : List Char)
  | otherwise
  | otherwiseIf (c : List Char)
  | closing (keyword : String)
  | triple (e : List Char)
  | ampersand (e : List Char)
  | html (e : List Char)
  | json (e : List Char)

namespace Tag

/-- What stands between the braces in the older dialect. -/
def inside : Tag → List Char
  | expression e | triple e => e
  | opening keyword c => keyword.toList ++ ' ' :: c
  | each c binding false => "#each".toList ++ ' ' :: (c ++ " as ".toList ++ binding)
  | each c binding true => "#each".toList ++ ' ' :: (c ++ " as ".toList ++ ('|' :: binding ++ ['|']))
  | eachItem c => "#each".toList ++ ' ' :: c
  | otherwise => "else".toList
  | otherwiseIf c => "else".toList ++ ' ' :: ("if".toList ++ ' ' :: c)
  | closing keyword => keyword.toList
  | ampersand e => '&' :: ' ' :: e
  | html e => "html".toList ++ ' ' :: e
  | json e => "json".toList ++ ' ' :: e

/-- The tag in the older dialect. -/
def double : Tag → List Char
  | triple e => "\x7b\x7b\x7b".toList ++ e ++ "\x7d\x7d\x7d".toList
  | t => "\x7b\x7b".toList ++ t.inside ++ "\x7d\x7d".toList

/-- The tag with single braces. -/
def single : Tag → List Char
  | expression e => braced "" e
  | opening keyword c => braced (keyword ++ " ") c
  | each c binding _ => braced "#each " (c ++ " as ".toList ++ binding)
  | eachItem c => braced "#each " (c ++ " as item".toList)
  | otherwise => braced ":else" []
  | otherwiseIf c => braced ":else if " c
  | closing keyword => braced keyword []
  | triple e | ampersand e | html e => braced "@html " e
  | json e => braced "@json " e

/-- A tag whose parts are what they are meant to be. -/
def Fits : Tag → Prop
  | expression e | triple e => IsExpression e
  | opening keyword c => keyword ∈ openings ∧ IsPart c
  | each c binding _ => IsPart c ∧ IsBinding binding
  | eachItem c => IsPart c ∧ occurs " as " c = false
  | otherwise => True
  | closing keyword => keyword ∈ closings
  | otherwiseIf c | ampersand c | html c | json c => IsPart c

instance : (t : Tag) → Decidable t.Fits
  | expression e | triple e => inferInstanceAs (Decidable (IsExpression e))
  | opening keyword c => inferInstanceAs (Decidable (keyword ∈ openings ∧ IsPart c))
  | each c binding _ => inferInstanceAs (Decidable (IsPart c ∧ IsBinding binding))
  | eachItem c => inferInstanceAs (Decidable (IsPart c ∧ occurs " as " c = false))
  | otherwise => inferInstanceAs (Decidable True)
  | closing keyword => inferInstanceAs (Decidable (keyword ∈ closings))
  | otherwiseIf c | ampersand c | html c | json c => inferInstanceAs (Decidable (IsPart c))

end Tag

/-- A piece of a template: text or a tag. -/
inductive Segment where
  | text (cs : List Char)
  | tag (t : Tag)

namespace Segment

def isText : Segment → Bool
  | text _ => true
  | tag _ => false

def double : Segment → List Char
  | text cs => cs
  | tag t => t.double

/-- The segment with single braces, where a brace that is text is escaped. -/
def single : Segment → List Char
  | text cs => cs.flatMap fun c => if c = '{' then ['\\', '{'] else [c]
  | tag t => t.single

/-- Texts hold no bracket and do not end where one could begin. -/
def Fits : Segment → Prop
  | text cs => occurs "\x7b\x7b" cs = false ∧ occurs "\x7b%" cs = false ∧ occurs "%\x7d" cs = false ∧
      cs.getLast? ≠ some '{'
  | tag t => t.Fits

instance : (s : Segment) → Decidable s.Fits
  | text _ => inferInstanceAs (Decidable (_ ∧ _ ∧ _ ∧ _))
  | tag t => inferInstanceAs (Decidable t.Fits)

end Segment

/-! ## Parts -/

section Parts

variable {w c cs : List Char}

theorem IsPart.trimmed (h : IsPart c) : Trimmed c := trimmed_iff.2 h.2.1

/-- The first word of a text, and the trimmed rest. -/
theorem splitWord_append (hw : ∀ x ∈ w, isBlank x = false) (c : List Char) :
    splitWord (w ++ ' ' :: c) = (w, trim c) := by
  have blank : isBlank ' ' = true := by decide
  have word : (w ++ ' ' :: c).takeWhile (!isBlank ·) = w := by
    rw [List.takeWhile_append_of_pos (by simpa using hw), List.takeWhile_cons_of_neg (by simp [blank]),
      List.append_nil]
  unfold splitWord
  dsimp only
  rw [word, List.drop_left, trim, trimStart, List.dropWhile_cons_of_pos blank]
  rfl

theorem splitWord_word (hw : ∀ x ∈ w, isBlank x = false) : splitWord w = (w, []) := by
  have word : w.takeWhile (!isBlank ·) = w := by
    rw [List.takeWhile_eq_self_iff]
    simpa using hw
  unfold splitWord
  dsimp only
  rw [word, List.drop_length]
  rfl

/-- The words that make a tag of an own kind, and the sign that does. -/
def keywords : List String :=
  openings ++ closings ++ ["#each", "else", "if", "&", "html", "json"]

theorem keyword_chars {keyword : String} (h : keyword ∈ keywords) :
    keyword.toList ≠ [] ∧ (∀ x ∈ keyword.toList, isBlank x = false) ∧
      ∀ x ∈ keyword.toList, x ∉ reserved := by
  have plain : keywords.all (fun k => !k.toList.isEmpty && k.toList.all (!isBlank ·) &&
      k.toList.all (!reserved.contains ·)) = true := by
    decide +kernel
  simpa [and_assoc] using List.all_eq_true.1 plain keyword h

/-- A keyword and what follows it after a blank. -/
theorem keyword_then {keyword : String} (h : keyword ∈ keywords) (hc : Trimmed c) (hn : c ≠ []) :
    trim (keyword.toList ++ ' ' :: c) = keyword.toList ++ ' ' :: c ∧
      splitWord (keyword.toList ++ ' ' :: c) = (keyword.toList, c) := by
  obtain ⟨nonempty, plain, -⟩ := keyword_chars h
  refine ⟨Trimmed.trim_eq ?_, by rw [splitWord_append plain, hc.trim_eq]⟩
  exact (trimmed_of_word plain).enclose nonempty [' '] hc hn

theorem keyword_alone {keyword : String} (h : keyword ∈ keywords) :
    trim keyword.toList = keyword.toList ∧ splitWord keyword.toList = (keyword.toList, []) := by
  obtain ⟨-, plain, -⟩ := keyword_chars h
  exact ⟨(trimmed_of_word plain).trim_eq, splitWord_word plain⟩

end Parts

/-! ## Loop heads -/

theorem splitAtLast?_eq_none_iff (p cs : List Char) (hp : p ≠ []) :
    splitAtLast? p cs = none ↔ ¬ p <:+: cs := by
  induction cs with
  | nil => simp [splitAtLast?, hp]
  | cons c cs ih =>
    rw [List.infix_cons_iff, splitAtLast?]
    cases hs : splitAtLast? p cs with
    | some found =>
      have rest : p <:+: cs := by
        simpa [hs] using ih
      simp [rest]
    | none =>
      have rest : ¬ p <:+: cs := ih.1 hs
      by_cases starts : p <+: c :: cs
      · simp [starts, List.isPrefixOf_iff_prefix]
      · simp [starts, rest, List.isPrefixOf_iff_prefix]

/-- A text splits at a pattern that does not begin again after its first character. -/
theorem splitAtLast?_append {x : Char} {p b : List Char} (h : ¬ x :: p <:+: p ++ b) (c : List Char) :
    splitAtLast? (x :: p) (c ++ (x :: p) ++ b) = some (c, b) := by
  induction c with
  | nil =>
    rw [List.nil_append, List.cons_append, splitAtLast?,
      (splitAtLast?_eq_none_iff _ _ (List.cons_ne_nil x p)).2 h]
    simp [List.isPrefixOf_iff_prefix]
  | cons d c ih => rw [List.cons_append, List.cons_append, splitAtLast?, ih]

/-- A pattern without a separator lies on one side of it. -/
theorem infix_split {p a b : List Char} {sep : Char} (hp : sep ∉ p) (h : p <:+: a ++ sep :: b) :
    p <:+: a ∨ p <:+: b := by
  induction a with
  | nil =>
    rw [List.nil_append, List.infix_cons_iff] at h
    cases h with
    | inl starts =>
      cases p with
      | nil => exact .inl (List.infix_refl _)
      | cons c p => simp [(List.cons_prefix_cons.1 starts).1] at hp
    | inr inside => exact .inr inside
  | cons c a ih =>
    rw [List.cons_append, List.infix_cons_iff] at h
    cases h with
    | inl starts =>
      have whole : c :: a ++ [sep] <+: c :: a ++ sep :: b := ⟨b, by simp⟩
      cases List.prefix_or_prefix_of_prefix starts whole with
      | inl short =>
        cases List.prefix_concat_iff.1 short with
        | inl eq => simp [eq] at hp
        | inr left => exact .inl left.isInfix
      | inr long => exact absurd (long.subset (by simp)) hp
    | inr inside =>
      cases ih inside with
      | inl ha => exact .inl (ha.trans (List.suffix_cons c a).isInfix)
      | inr hb => exact .inr hb

/-- A word that is not `as` does not hold the keyword between blanks, also if a blank precedes it. -/
theorem not_as_of_name {piece : List Char} (name : isName (String.ofList (trim piece)) = true)
    (other : trim piece ≠ "as".toList) : ¬ " as ".toList <:+: ' ' :: piece := by
  have plain : ∀ c ∈ trim piece, isBlank c = false := by
    intro c hc
    exact not_blank_of_namePart (isName_parts name c (by simpa using hc))
  obtain ⟨l, r, eq, hl, hr⟩ := trim_split piece
  generalize trim piece = word at *
  have blanks : ∀ c ∈ ' ' :: l, isBlank c = true := List.forall_mem_cons.2 ⟨by decide, hl⟩
  rintro ⟨s, t, found⟩
  have found : s ++ (' ' :: 'a' :: 's' :: ' ' :: t) = ' ' :: l ++ (word ++ r) := by
    rw [eq] at found
    simpa using found
  rcases List.append_eq_append_iff.1 found with ⟨z, left, right⟩ | ⟨z, left, right⟩
  · -- the keyword begins among the blanks before the word
    obtain _ | ⟨d, _ | ⟨e, z⟩⟩ := z
    · obtain _ | ⟨c, word⟩ := word
      · simp [isName] at name
      · obtain ⟨rfl, -⟩ := List.cons.inj right
        exact absurd (plain ' ' List.mem_cons_self) (by decide)
    · -- with the last of them: then it is the word
      obtain ⟨-, right⟩ := List.cons.inj right
      obtain _ | ⟨c, _ | ⟨c', _ | ⟨c'', word⟩⟩⟩ := word
      · simp [isName] at name
      · obtain ⟨-, rfl⟩ := List.cons.inj right
        exact absurd (hr 's' List.mem_cons_self) (by decide)
      · obtain ⟨rfl, tail⟩ := List.cons.inj right
        obtain ⟨rfl, -⟩ := List.cons.inj tail
        exact other rfl
      · obtain ⟨-, right⟩ := List.cons.inj right
        obtain ⟨-, right⟩ := List.cons.inj right
        obtain ⟨rfl, -⟩ := List.cons.inj right
        exact absurd (plain ' ' (by simp)) (by decide)
    · obtain ⟨-, right⟩ := List.cons.inj right
      obtain ⟨rfl, -⟩ := List.cons.inj right
      exact absurd (blanks 'a' (by simp [left])) (by decide)
  · -- the blank before the keyword would stand in the word
    have right : word ++ r = z ++ [' '] ++ ('a' :: 's' :: ' ' :: t) := by
      simpa using right
    rcases List.append_eq_append_iff.1 right with ⟨u, -, ends⟩ | ⟨u, ends, -⟩
    · have : isBlank 'a' = true := hr 'a' (by simp [ends])
      cases this
    · have : isBlank ' ' = false := plain ' ' (by simp [ends])
      cases this

theorem IsBinding.not_as {b : List Char} (h : IsBinding b) : ¬ " as ".toList <:+: ' ' :: b := by
  have pieces (names : List (List Char)) (good : ∀ name ∈ names,
      isName (String.ofList (trim name)) = true ∧ trim name ≠ "as".toList) :
      ¬ " as ".toList <:+: ' ' :: [','].intercalate names := by
    induction names with
    | nil => decide
    | cons name names ih =>
      obtain ⟨first, others⟩ := List.forall_mem_cons.1 good
      have here := not_as_of_name first.1 first.2
      cases names with
      | nil => simpa using here
      | cons name' names =>
        intro found
        have found : " as ".toList <:+: ' ' :: name ++ ',' :: [','].intercalate (name' :: names) := by
          simpa [List.intercalate_cons_cons] using found
        cases infix_split (by decide) found with
        | inl inName => exact here inName
        | inr inRest => exact ih others (inRest.trans (List.suffix_cons ' ' _).isInfix)
  have joined : [','].intercalate (b.splitOn ',') = b := List.intercalate_splitOn ','
  rw [← joined]
  exact pieces _ h.2

theorem IsBinding.not_mem_bar {b : List Char} (h : IsBinding b) : '|' ∉ b := by
  have pieces (names : List (List Char)) (good : ∀ name ∈ names,
      isName (String.ofList (trim name)) = true ∧ trim name ≠ "as".toList) :
      '|' ∉ [','].intercalate names := by
    induction names with
    | nil => decide
    | cons name names ih =>
      obtain ⟨first, others⟩ := List.forall_mem_cons.1 good
      have here : '|' ∉ name := by
        obtain ⟨l, r, eq, hl, hr⟩ := trim_split name
        rw [eq, List.mem_append, List.mem_append, not_or, not_or]
        refine ⟨⟨?_, ?_⟩, ?_⟩
        · exact fun mem => absurd (hl _ mem) (by decide)
        · exact fun mem => absurd (isName_parts first.1 '|' (by simpa using mem)) (by decide +kernel)
        · exact fun mem => absurd (hr _ mem) (by decide)
      cases names with
      | nil => simpa using here
      | cons name' names => simp [List.intercalate_cons_cons, here, ih others]
  have joined : [','].intercalate (b.splitOn ',') = b := List.intercalate_splitOn ','
  rw [← joined]
  exact pieces _ h.2

/-- The variables of a loop are what follows the last `as`. -/
theorem eachTag_append {c b written : List Char} (hc : Trimmed c)
    (last : ¬ " as ".toList <:+: ' ' :: written) (hb : trim (stripBars (trim written)) = b) :
    eachTag (c ++ " as ".toList ++ written) = braced "#each " (c ++ " as ".toList ++ b) := by
  have last : ¬ ' ' :: "as ".toList <:+: "as ".toList ++ written := by
    simpa [List.infix_cons_iff] using last
  have split := splitAtLast?_append last c
  unfold eachTag
  rw [show " as ".toList = ' ' :: "as ".toList from rfl, split]
  simp only [hc.trim_eq, hb]

theorem eachTag_plain {c b : List Char} (hc : Trimmed c) (hb : IsBinding b) :
    eachTag (c ++ " as ".toList ++ b) = braced "#each " (c ++ " as ".toList ++ b) := by
  have plain : stripBars b = b := by
    unfold stripBars
    split
    · exact absurd List.mem_cons_self hb.not_mem_bar
    · rfl
  exact eachTag_append hc hb.not_as (by rw [hb.1.2.1, plain, hb.1.2.1])

theorem eachTag_bars {c b : List Char} (hc : Trimmed c) (hb : IsBinding b) :
    eachTag (c ++ " as ".toList ++ ('|' :: b ++ ['|'])) =
      braced "#each " (c ++ " as ".toList ++ b) := by
  refine eachTag_append hc ?_ ?_
  · -- a bar parts the keyword from the blank before and from what follows
    intro found
    cases infix_split (by decide) (show " as ".toList <:+: [' '] ++ '|' :: (b ++ ['|']) from found) with
    | inl before => exact absurd before (by decide)
    | inr found =>
      cases infix_split (by decide) found with
      | inl inside => exact hb.not_as (inside.trans (List.suffix_cons ' ' b).isInfix)
      | inr after => exact absurd after (by decide)
  · have bar : Trimmed ['|'] := trimmed_of_word (by simp; decide)
    have trimmed : trim ('|' :: b ++ ['|']) = '|' :: b ++ ['|'] :=
      (bar.enclose (by simp) b bar (by simp)).trim_eq
    have stripped : stripBars ('|' :: b ++ ['|']) = b := by
      simp [stripBars]
    rw [trimmed, stripped, hb.1.2.1]

theorem eachTag_item {c : List Char} (h : occurs " as " c = false) :
    eachTag c = braced "#each " (c ++ " as item".toList) := by
  have none : splitAtLast? " as ".toList c = none := by
    rw [splitAtLast?_eq_none_iff _ _ (by decide), ← occurs_iff, h]
    decide
  unfold eachTag
  rw [none]
  simp

/-! ## Tags on their own -/

/-- An expression is copied, since neither its first sign nor its first word is special. -/
theorem IsExpression.convertTag {e : List Char} (h : IsExpression e) (span : Span) :
    convertTag e span = .ok (braced "" e) := by
  obtain ⟨⟨nonempty, trimmed, free⟩, sign, word⟩ := h
  obtain _ | ⟨a, e⟩ := e
  · exact absurd rfl nonempty
  have ha : isBlank a = false := (trimmed_iff.2 trimmed).head a rfl
  have first : (splitWord (a :: e)).1 = a :: e.takeWhile (!isBlank ·) := by
    simp [splitWord, ha]
  rw [List.takeWhile_cons_of_pos (by simp [ha])] at word
  generalize e.takeWhile (!isBlank ·) = w at first word
  have sign : a ∉ ['#', '/', '>', '!', '&'] := by simpa using sign
  have keyword (k : String) (hk : k.toList ∈ ["html".toList, "json".toList, "else".toList] ∨
      k.toList.head? ∈ [some '#', some '/']) : String.ofList (a :: w) ≠ k := by
    intro eq
    have chars : a :: w = k.toList := by rw [← eq, String.toList_ofList]
    rw [← chars] at hk
    cases hk with
    | inl hk => exact word hk
    | inr hk =>
      have special : a = '#' ∨ a = '/' := by simpa using hk
      obtain rfl | rfl := special <;> simp at sign
  have brace : a ≠ '{' := fun h => free a List.mem_cons_self (by simp [h, reserved])
  have last : (a :: e).getLast? ≠ some '}' := fun h => free '}' (List.mem_of_getLast? h) (by simp [reserved])
  unfold DoubleBrace.convertTag
  dsimp only
  rw [trimmed, first]
  simp_all [-String.ofList_cons]

theorem convertTag_each {rest : List Char} (h : Trimmed rest) (hn : rest ≠ []) (span : Span) :
    convertTag ("#each".toList ++ ' ' :: rest) span = .ok (eachTag rest) := by
  obtain ⟨trimmed, split⟩ := keyword_then (show "#each" ∈ keywords by simp [keywords]) h hn
  simp only [convertTag, trimmed, split]
  simp

/-- A tag that fits is turned into its form with single braces. -/
theorem Tag.convertTag_inside {t : Tag} (h : t.Fits) (double : ∀ e, t ≠ .triple e) (span : Span) :
    convertTag t.inside span = .ok t.single := by
  -- a tag is told by its first word, which stands alone or before a part without outer blanks
  cases t with
  | expression e => exact h.convertTag span
  | opening keyword c =>
    obtain ⟨known, part⟩ := h
    obtain ⟨trimmed, split⟩ :=
      keyword_then (show keyword ∈ keywords by simp [keywords, known]) part.trimmed part.1
    simp only [openings, List.mem_cons, List.not_mem_nil, or_false] at known
    unfold inside
    simp only [convertTag, trimmed, split]
    obtain rfl | rfl | rfl := known <;> simp [single]
  | each c binding bars =>
    obtain ⟨part, hb⟩ := h
    cases bars with
    | false =>
      have rest : Trimmed (c ++ " as ".toList ++ binding) := by
        rw [List.append_assoc]
        exact part.trimmed.enclose part.1 _ hb.1.trimmed hb.1.1
      unfold inside
      rw [convertTag_each rest (by simp), eachTag_plain part.trimmed hb, single]
    | true =>
      have rest : Trimmed (c ++ " as ".toList ++ ('|' :: binding ++ ['|'])) := by
        rw [List.append_assoc, ← List.append_assoc _ _ ['|']]
        exact part.trimmed.enclose part.1 _ (trimmed_of_word (by simp; decide)) (by simp)
      unfold inside
      rw [convertTag_each rest (by simp), eachTag_bars part.trimmed hb, single]
  | eachItem c =>
    obtain ⟨part, free⟩ := h
    unfold inside
    rw [convertTag_each part.trimmed part.1, eachTag_item free, single]
  | otherwise =>
    obtain ⟨trimmed, split⟩ := keyword_alone (show "else" ∈ keywords by simp [keywords])
    unfold inside
    simp only [convertTag, trimmed, split]
    simp [single]
  | otherwiseIf c =>
    obtain ⟨trimmed', split'⟩ := keyword_then (show "if" ∈ keywords by simp [keywords]) h.trimmed h.1
    obtain ⟨trimmed, split⟩ :=
      keyword_then (show "else" ∈ keywords by simp [keywords]) (trimmed_iff.2 trimmed') (by simp)
    unfold inside
    simp only [convertTag, trimmed, split, split']
    simp [single, braced]
  | closing keyword =>
    obtain ⟨trimmed, split⟩ := keyword_alone (show keyword ∈ keywords by simp_all [keywords, Fits])
    simp only [Fits, closings, List.mem_cons, List.not_mem_nil, or_false] at h
    unfold inside
    simp only [convertTag, trimmed, split]
    obtain rfl | rfl | rfl | rfl := h <;> simp [single]
  | triple e => exact absurd rfl (double e)
  | ampersand e =>
    obtain ⟨trimmed, -⟩ := keyword_then (show "&" ∈ keywords by simp [keywords]) h.trimmed h.1
    have trimmed : trim ('&' :: ' ' :: e) = '&' :: ' ' :: e := trimmed
    have rest : trim (' ' :: e) = e := by
      have blank : isBlank ' ' = true := by decide
      rw [trim, trimStart, List.dropWhile_cons_of_pos blank]
      exact h.2.1
    unfold inside
    simp only [convertTag, trimmed]
    simp [single, rest]
  | html e =>
    obtain ⟨trimmed, split⟩ := keyword_then (show "html" ∈ keywords by simp [keywords]) h.trimmed h.1
    unfold inside
    simp only [convertTag, trimmed, split]
    simp [single, h.1]
  | json e =>
    obtain ⟨trimmed, split⟩ := keyword_then (show "json" ∈ keywords by simp [keywords]) h.trimmed h.1
    unfold inside
    simp only [convertTag, trimmed, split]
    simp [single, h.1]

/-! ## Tags among other segments -/

theorem Tag.free {t : Tag} (h : t.Fits) : ∀ c ∈ t.inside, c ∉ reserved := by
  have word {keyword : String} (known : keyword ∈ keywords) {rest : List Char}
      (free : ∀ c ∈ rest, c ∉ reserved) : ∀ c ∈ keyword.toList ++ ' ' :: rest, c ∉ reserved := by
    rw [List.forall_mem_append, List.forall_mem_cons]
    exact ⟨(keyword_chars known).2.2, by decide, free⟩
  cases t with
  | expression e | triple e => exact h.1.2.2
  | opening keyword c => exact word (by simp [keywords, h.1]) h.2.2.2
  | each c binding bars =>
    obtain ⟨⟨-, -, freeC⟩, ⟨-, -, freeB⟩, -⟩ := h
    have collection : ∀ x ∈ c ++ " as ".toList, x ∉ reserved :=
      List.forall_mem_append.2 ⟨freeC, by simp [reserved]⟩
    have barred : ∀ x ∈ '|' :: binding ++ ['|'], x ∉ reserved :=
      List.forall_mem_append.2 ⟨List.forall_mem_cons.2 ⟨by decide, freeB⟩, by simp [reserved]⟩
    cases bars with
    | false => exact word (by simp [keywords]) (List.forall_mem_append.2 ⟨collection, freeB⟩)
    | true => exact word (by simp [keywords]) (List.forall_mem_append.2 ⟨collection, barred⟩)
  | eachItem c => exact word (by simp [keywords]) h.1.2.2
  | otherwise => exact (keyword_chars (show "else" ∈ keywords by simp [keywords])).2.2
  | otherwiseIf c => exact word (by simp [keywords]) (word (by simp [keywords]) h.2.2)
  | closing keyword => exact (keyword_chars (show keyword ∈ keywords by simp_all [keywords, Fits])).2.2
  | ampersand e => exact word (show "&" ∈ keywords by simp [keywords]) h.2.2
  | html e | json e => exact word (by simp [keywords]) h.2.2

/-- No tag declares a fragment or refers to one. -/
theorem Tag.no_fragment {t : Tag} (h : t.Fits) (more : List Char) :
    ¬ "#block".toList <+: t.inside ++ more ∧ ¬ [ '>'] <+: t.inside ++ more := by
  cases t with
  | expression e | triple e =>
    obtain ⟨⟨nonempty, -⟩, sign, -⟩ := h
    obtain _ | ⟨a, e⟩ := e
    · exact absurd rfl nonempty
    · unfold inside
      constructor <;> (simp; rintro rfl; simp at sign)
  | opening keyword c =>
    obtain ⟨known, -⟩ := h
    simp only [openings, List.mem_cons, List.not_mem_nil, or_false] at known
    unfold inside
    obtain rfl | rfl | rfl := known <;> simp
  | closing keyword =>
    simp only [Fits, closings, List.mem_cons, List.not_mem_nil, or_false] at h
    unfold inside
    obtain rfl | rfl | rfl | rfl := h <;> simp
  | each c binding bars =>
    unfold inside
    cases bars <;> simp
  | eachItem | otherwise | otherwiseIf | ampersand | html | json =>
    unfold inside
    simp

theorem not_prefix_of_free {x : Char} {q body rest : List Char} (hn : body ≠ []) (free : x ∉ body) :
    ¬ x :: q <+: body ++ rest := by
  cases body with
  | nil => exact absurd rfl hn
  | cons c body =>
    intro starts
    rw [List.cons_append, List.cons_prefix_cons] at starts
    simp [starts.1] at free

/-- A tag has its inside between two or three braces. -/
theorem Tag.double_eq (t : Tag) : ∃ closing, closing ≠ [] ∧ (∀ c ∈ closing, c = '}') ∧
    (t.double = '{' :: '{' :: (t.inside ++ closing) ∨
      t.double = '{' :: '{' :: '{' :: (t.inside ++ closing)) := by
  cases t with
  | triple e => exact ⟨['}', '}', '}'], by simp, by simp, .inr rfl⟩
  | _ => exact ⟨['}', '}'], by simp, by simp, .inl rfl⟩

/-- A pattern that begins with a brace does not begin in a tag, unless it goes on with the inside of
the tag. -/
theorem Tag.infix_of_double {t : Tag} (h : t.Fits) {y : Char} {q rest : List Char}
    (hy : y ∈ ['{', '%'])
    (hq : y = '{' → q.head? ≠ some '{' ∧ ∀ more, ¬ q <+: t.inside ++ more)
    (found : '{' :: y :: q <:+: t.double ++ rest) : '{' :: y :: q <:+: rest := by
  obtain ⟨closing, nonempty, closes, eq⟩ := t.double_eq
  have free (x : Char) (hx : x ∈ ['{', '%']) : x ∉ t.inside ++ closing := by
    rw [List.mem_append]
    rintro (mem | mem)
    · refine t.free h x mem ?_
      simp only [List.mem_cons, List.not_mem_nil, or_false] at hx
      obtain rfl | rfl := hx <;> decide
    · rw [closes x mem] at hx
      simp at hx
  have nonempty : t.inside ++ closing ≠ [] := List.append_ne_nil_of_right_ne_nil _ nonempty
  have inner (found : '{' :: y :: q <:+: '{' :: '{' :: (t.inside ++ closing ++ rest)) :
      '{' :: y :: q <:+: rest := by
    rw [List.infix_cons_iff, List.infix_cons_iff] at found
    obtain starts | starts | inside := found
    · -- at the outer brace
      obtain ⟨-, rfl, goes⟩ : _ ∧ y = '{' ∧ _ := by
        simpa only [List.cons_prefix_cons] using starts
      rw [List.append_assoc] at goes
      exact absurd goes ((hq rfl).2 _)
    · -- at the inner brace
      obtain ⟨-, starts⟩ := List.cons_prefix_cons.1 starts
      exact absurd starts (not_prefix_of_free nonempty (free y hy))
    · exact infix_of_append_free (free '{' (by simp)) inside
  obtain eq | eq := eq
  · rw [eq] at found
    exact inner found
  · rw [eq, List.cons_append, List.infix_cons_iff] at found
    obtain starts | inside := found
    · obtain ⟨-, rfl, goes⟩ : _ ∧ y = '{' ∧ _ := by
        simpa only [List.cons_append, List.cons_prefix_cons] using starts
      obtain ⟨other, more⟩ := hq rfl
      cases q with
      | nil => exact absurd List.nil_prefix (more [])
      | cons c q => exact absurd (congrArg some (List.cons_prefix_cons.1 goes).1) other
    · exact inner inside

/-! ## Segments together -/

/-- The texts that the passes before the conversion look for. -/
def patterns : List (List Char) :=
  ['{' :: '{' :: "#block".toList, ['{', '{', '>'], ['{', '%'], ['%', '}']]

namespace Segment

variable {s : Segment} {segments : List Segment} {p rest : List Char}

/-- No pattern begins in a segment, also not at its border with the next one. -/
theorem infix_of_double (h : s.Fits) (hp : p ∈ patterns)
    (border : s.isText → rest.head? ≠ some '}') (found : p <:+: s.double ++ rest) : p <:+: rest := by
  simp only [patterns, List.mem_cons, List.not_mem_nil, or_false] at hp
  cases s with
  | text cs =>
    simp only [Fits, ← Bool.not_eq_true, occurs_iff] at h
    obtain ⟨double, percent, close, last⟩ := h
    have brace {y : Char} : cs.getLast? = some '{' → rest.head? ≠ some y := fun eq => absurd eq last
    obtain rfl | rfl | rfl | rfl := hp
    · exact infix_of_append double brace found
    · exact infix_of_append double brace found
    · exact infix_of_append percent brace found
    · exact infix_of_append close (fun _ => border rfl) found
  | tag t =>
    obtain rfl | rfl | rfl | rfl := hp
    · exact t.infix_of_double h (by simp) (fun _ => ⟨by simp, fun more => (t.no_fragment h more).1⟩) found
    · exact t.infix_of_double h (by simp) (fun _ => ⟨by simp, fun more => (t.no_fragment h more).2⟩) found
    · exact t.infix_of_double h (by simp) (by simp) found
    · obtain ⟨closing, -, closes, eq⟩ := t.double_eq
      have free : '%' ∉ t.double := by
        have inside : '%' ∉ t.inside := fun mem => t.free h _ mem (by decide)
        have closing : '%' ∉ closing := fun mem => absurd (closes _ mem) (by decide)
        obtain eq | eq := eq <;> simp [eq, inside, closing]
      exact infix_of_append_free free found

/-- No text follows a text. -/
def Apart (segments : List Segment) : Prop :=
  segments.IsChain fun a b => ¬ (a.isText ∧ b.isText)

theorem head?_of_apart (h : Apart (s :: segments)) (text : s.isText) :
    (segments.flatMap double).head? ≠ some '}' := by
  cases segments with
  | nil => simp
  | cons s' segments =>
    have next := (List.isChain_cons_cons.1 h).1
    cases s' with
    | text cs => exact absurd ⟨text, rfl⟩ next
    | tag t =>
      obtain ⟨closing, -, -, eq | eq⟩ := t.double_eq <;> simp [double, eq]

/-- None of the patterns occurs, so that only the conversion changes a template. -/
theorem not_infix (fits : ∀ s ∈ segments, s.Fits) (apart : Apart segments) (hp : p ∈ patterns) :
    ¬ p <:+: segments.flatMap double := by
  induction segments with
  | nil =>
    simp only [patterns, List.mem_cons, List.not_mem_nil, or_false] at hp
    obtain rfl | rfl | rfl | rfl := hp <;> simp
  | cons s segments ih =>
    obtain ⟨first, others⟩ := List.forall_mem_cons.1 fits
    intro found
    rw [List.flatMap_cons] at found
    exact ih others apart.tail (infix_of_double first hp (head?_of_apart apart) found)

/-- A text among the pieces of a template. -/
theorem cut_text {cs : List Char} {pieces : List Piece} (free : ¬ ['{', '{'] <:+: cs)
    (last : cs.getLast? ≠ some '{') (h : Cut rest pieces) :
    ∃ pieces', Cut (cs ++ rest) pieces' ∧
      pieces'.flatMap Piece.written = (text cs).single ++ pieces.flatMap Piece.written := by
  induction cs with
  | nil => exact ⟨pieces, h, rfl⟩
  | cons c cs ih =>
    have tail : cs.getLast? ≠ some '{' := by
      cases cs with
      | nil => simp
      | cons d cs => rwa [List.getLast?_cons_cons] at last
    obtain ⟨pieces', cut, eq⟩ :=
      ih (fun inside => free (inside.trans (List.suffix_cons c cs).isInfix)) tail
    by_cases hc : c = '{'
    · subst hc
      refine ⟨_, .brace ?_ cut, ?_⟩
      · -- a second brace would make a bracket, with this text or at its end
        cases cs with
        | nil => simp at last
        | cons d cs =>
          rintro ⟨⟩
          exact free ⟨[], cs, rfl⟩
      · simpa [single, Piece.written] using eq
    · refine ⟨_, .char hc cut, ?_⟩
      simpa [single, Piece.written, hc] using eq

theorem cut_tag {t : Tag} {pieces : List Piece} (fits : t.Fits) (h : Cut rest pieces) :
    ∃ pieces', Cut (t.double ++ rest) pieces' ∧
      pieces'.flatMap Piece.written = t.single ++ pieces.flatMap Piece.written := by
  have free : ∀ c ∈ t.inside, c ∉ ['"', '\'', '}'] := by
    intro c hc mem
    refine t.free fits c hc ?_
    simp only [List.mem_cons, List.not_mem_nil, or_false] at mem
    obtain rfl | rfl | rfl := mem <;> decide
  by_cases three : ∃ e, t = .triple e
  · obtain ⟨e, rfl⟩ := three
    have closed := closeTag?_append ['}', '}'] free rest
    refine ⟨.triple e :: pieces, .triple closed h, ?_⟩
    simp [Piece.written, Tag.single, fits.1.2.1]
  · have three : ∀ e, t ≠ .triple e := fun e eq => three ⟨e, eq⟩
    have eq : t.double ++ rest = '{' :: '{' :: (t.inside ++ ['}', '}'] ++ rest) := by
      cases t with
      | triple e => exact absurd rfl (three e)
      | _ => rfl
    have first : (t.inside ++ ['}', '}'] ++ rest).head? ≠ some '{' := by
      cases hi : t.inside with
      | nil => simp
      | cons c cs =>
        rintro ⟨⟩
        exact t.free fits '{' (by simp [hi]) (by decide)
    rw [eq]
    refine ⟨_, .tag first (closeTag?_append ['}'] free rest) (t.convertTag_inside fits three) h, ?_⟩
    simp [Piece.written]

/-- The pieces of a template are those of its segments. -/
theorem cut (fits : ∀ s ∈ segments, s.Fits) :
    ∃ pieces, Cut (segments.flatMap double) pieces ∧
      pieces.flatMap Piece.written = segments.flatMap single := by
  induction segments with
  | nil => exact ⟨[], .nil, rfl⟩
  | cons s segments ih =>
    obtain ⟨first, others⟩ := List.forall_mem_cons.1 fits
    obtain ⟨pieces, rest, eq⟩ := ih others
    rw [List.flatMap_cons, List.flatMap_cons, ← eq]
    cases s with
    | text cs =>
      simp only [Fits, ← Bool.not_eq_true, occurs_iff] at first
      exact cut_text first.1 first.2.2.2 rest
    | tag t => exact cut_tag first rest

/-- With a tag, a template is of the older dialect. -/
theorem detect_double (tagged : ∃ t, tag t ∈ segments) :
    detect (segments.flatMap double) = true := by
  obtain ⟨t, mem⟩ := tagged
  obtain ⟨before, after, rfl⟩ := List.append_of_mem mem
  have braces : ∃ x, t.double = "\x7b\x7b".toList ++ (x ++ "\x7d\x7d".toList) := by
    cases t with
    | triple e => exact ⟨'{' :: e ++ ['}'], by simp [Tag.double]⟩
    | _ => exact ⟨_, List.append_assoc ..⟩
  obtain ⟨x, eq⟩ := braces
  have shape : (before ++ tag t :: after).flatMap double = before.flatMap double ++
      "\x7b\x7b".toList ++ (x ++ "\x7d\x7d".toList ++ after.flatMap double) := by
    rw [List.flatMap_append, List.flatMap_cons, double, eq]
    simp only [List.append_assoc]
  rw [shape]
  exact detect_of_tag ..

end Segment

/-- The two dialects correspond segment by segment. A template that consists of texts and tags, of
which at least one is a tag and no two texts are neighbours, is normalised to the single forms of
its segments, one after the other. -/
theorem normalize_segments {segments : List Segment} (fits : ∀ s ∈ segments, s.Fits)
    (apart : Segment.Apart segments) (tagged : ∃ t, .tag t ∈ segments) :
    normalize (String.ofList (segments.flatMap Segment.double)) =
      .ok (String.ofList (segments.flatMap Segment.single)) := by
  obtain ⟨pieces, cut, written⟩ := Segment.cut fits
  have dialect := Segment.detect_double tagged
  have free {p : List Char} (hp : p ∈ patterns) := Segment.not_infix fits apart hp
  generalize segments.flatMap Segment.double = source at *
  have expanded : expansion source = .ok source := by
    apply expansion_of_free
    all_goals exact free (by decide)
  rw [← String.toList_ofList (l := source)] at dialect
  rw [normalize_eq_ok_iff dialect, String.toList_ofList]
  exact ⟨source, pieces, expanded, cut, by rw [written]⟩

/-- A loop with bars, a brace that is text, a percent sign before a tag, a brace after one, and a
triple tag. -/
theorem normalize_segments_loop :
    let segments : List Segment :=
      [.tag (.each "xs".toList "x, i".toList true), .text "\x7b 50%".toList,
        .tag (.expression "x.y > 1".toList), .text "\x7d".toList, .tag (.triple "x".toList),
        .tag (.closing "/each")]
    (∀ s ∈ segments, s.Fits) ∧
      String.ofList (segments.flatMap Segment.double) =
        "\x7b\x7b#each xs as |x, i|\x7d\x7d\x7b 50%\x7b\x7bx.y > 1\x7d\x7d\x7d\x7b\x7b\x7bx\x7d\x7d\x7d\x7b\x7b/each\x7d\x7d" ∧
      normalize (String.ofList (segments.flatMap Segment.double)) =
        .ok "\x7b#each xs as x, i\x7d\\\x7b 50%\x7bx.y > 1\x7d\x7d\x7b@html x\x7d\x7b/each\x7d" := by
  intro segments
  have fits : ∀ s ∈ segments, s.Fits := by decide +kernel
  have apart : Segment.Apart segments := by simp [segments, Segment.Apart, Segment.isText]
  have tagged : Segment.tag (.closing "/each") ∈ segments := by simp [segments]
  refine ⟨fits, by decide +kernel, ?_⟩
  rw [normalize_segments fits apart ⟨_, tagged⟩]
  decide +kernel

end LiveTemplate.DoubleBrace
