/-
The keywords of directives: the one at the front of a braced part, which tells its kind, and the one
between the two parts of a loop header.
-/
import LiveTemplate.Proofs.Expr.Nesting
import LiveTemplate.Proofs.Markup.Strings

namespace LiveTemplate.Markup

open Text

/-! ## At the front -/

namespace Directive

/-- A braced part that is written with a keyword and something behind it begins with the keyword, and
the rest of it starts behind the blanks. -/
theorem heads_of_text (start : Nat) {before word gap rest after : List Char}
    (hb : ∀ c ∈ before, isBlank c = true) (hw : ∀ c ∈ word, isBlank c = false) (hn : word ≠ [])
    (hg : ∀ c ∈ gap, isBlank c = true) (gn : gap ≠ []) (hr : Trimmed rest) (rn : rest ≠ [])
    (ha : ∀ c ∈ after, isBlank c = true) :
    Heads ⟨start, before ++ (word ++ (gap ++ rest) ++ after)⟩ (String.ofList word)
      ⟨start + byteLength (before ++ (word ++ gap)), rest⟩ := by
  have whole : Trimmed (word ++ (gap ++ rest)) := (trimmed_of_word hw).enclose hn gap hr rn
  have trimmed := Region.trim_eq start hb ha whole (by simp [hn])
  have length : 1 + (((word ++ (gap ++ rest)).drop 1).takeWhile (!isBlank ·)).length = word.length := by
    obtain ⟨c, more, rfl⟩ := List.exists_cons_of_ne_nil hn
    obtain ⟨b, blanks, rfl⟩ := List.exists_cons_of_ne_nil gn
    rw [List.cons_append, List.drop_succ_cons, List.drop_zero,
      List.takeWhile_append_of_pos fun d hd => by simp [hw d (List.mem_cons_of_mem c hd)],
      List.cons_append, List.takeWhile_cons_of_neg (by simp [hg b List.mem_cons_self]),
      List.append_nil, List.length_cons, Nat.add_comm]
  have behind := Region.trim_eq (start + byteLength before + byteLength word) hg
    (r := []) (by simp) hr rn
  rw [List.append_nil] at behind
  unfold Heads
  rw [trimmed]
  simp only [length]
  constructor
  · rw [Region.take, List.take_left, Region.toString]
  · rw [Region.drop, List.take_left, List.drop_left, behind]
    simp only [Delimiter.byteLength_append, Nat.add_assoc]

/-- The other way round, a braced part that begins with a keyword is written with it. -/
theorem Heads.text {braced rest : Region} {word : String} (h : Heads braced word rest) :
    ∃ before gap after, braced.text = before ++ (word.toList ++ (gap ++ rest.text) ++ after) ∧
      (∀ c ∈ before, isBlank c = true) ∧ (∀ c ∈ gap, isBlank c = true) ∧
      (rest.text ≠ [] → gap ≠ []) := by
  obtain ⟨rfl, rfl⟩ := h
  obtain ⟨before, after, whole, hb, -⟩ := trim_split braced.text
  rw [← Region.trim_text] at whole
  generalize braced.trim = here at whole ⊢
  -- behind the keyword stands nothing or a blank
  have ends : ∀ c ∈ (here.text.drop (1 + ((here.text.drop 1).takeWhile (!isBlank ·)).length)).head?,
      isBlank c = true := by
    intro c hc
    have word := List.takeWhile_append_dropWhile (p := (!isBlank ·)) (l := here.text.drop 1)
    have stops := List.head?_dropWhile_not (!isBlank ·) (here.text.drop 1)
    rw [← List.drop_drop] at hc
    generalize (here.text.drop 1).takeWhile (!isBlank ·) = front at word hc
    generalize (here.text.drop 1).dropWhile (!isBlank ·) = back at word stops
    rw [← word, List.drop_left, Option.mem_def] at hc
    simpa [hc] using stops
  generalize 1 + ((here.text.drop 1).takeWhile (!isBlank ·)).length = n at ends ⊢
  obtain ⟨gap, blanks, behind, hg, -⟩ := trim_split (here.text.drop n)
  have rest : (here.drop n).trim.text = trim (here.text.drop n) := Region.trim_text _
  rw [rest]
  refine ⟨before, gap, blanks ++ after, ?_, hb, hg, ?_⟩
  · rw [whole, ← List.take_append_drop n here.text, Region.toString, String.toList_ofList]
    simp only [Region.take, List.take_append_drop]
    rw [show here.text.take n ++ (gap ++ trim (here.text.drop n)) ++ (blanks ++ after) =
      here.text.take n ++ (gap ++ trim (here.text.drop n) ++ blanks) ++ after by simp, ← behind,
      List.take_append_drop]
    simp
  · rintro filled rfl
    obtain ⟨c, more, eq⟩ := List.exists_cons_of_ne_nil filled
    have blank := ends c (by rw [behind, eq]; rfl)
    rw [(trimmed_trim (here.text.drop n)).head c (by rw [eq]; rfl)] at blank
    cases blank

theorem Heads.trimmed {braced rest : Region} {word : String} (h : Heads braced word rest) :
    Trimmed rest.text := by
  obtain ⟨-, rfl⟩ := h
  rw [Region.trim_text]
  exact trimmed_trim _

/-- No blank stands in the keyword. -/
theorem Heads.word {braced rest : Region} {word : String} (h : Heads braced word rest) :
    ∀ c ∈ word.toList, isBlank c = false := by
  obtain ⟨rfl, -⟩ := h
  rw [Region.toString, String.toList_ofList]
  have trimmed := trimmed_trim braced.text
  rw [← Region.trim_text] at trimmed
  generalize braced.trim = here at trimmed ⊢
  obtain ⟨start, _ | ⟨c, tail⟩⟩ := here
  · simp [Region.take]
  have word := List.takeWhile_append_dropWhile (p := (!isBlank ·)) (l := tail)
  have plain : ∀ d ∈ tail.takeWhile (!isBlank ·), isBlank d = false := by
    intro d hd
    simpa using List.mem_takeWhile_imp hd
  simp only [Region.take, List.drop_succ_cons, List.drop_zero, Nat.add_comm 1, List.take_succ_cons]
  generalize tail.takeWhile (!isBlank ·) = front at word plain ⊢
  rw [← word, List.take_left]
  exact List.forall_mem_cons.2 ⟨trimmed.head c rfl, plain⟩

/-- The character at the front of a braced part is the one at the front of its keyword. -/
theorem Heads.sigil {braced rest : Region} {word : String} (h : Heads braced word rest) {c : Char}
    {more : List Char} (hw : word.toList = c :: more) : ∃ tail, braced.trim.text = c :: tail := by
  obtain ⟨rfl, -⟩ := h
  rw [Region.toString, String.toList_ofList] at hw
  rcases text : braced.trim.text with _ | ⟨d, tail⟩
  · simp [Region.take, text] at hw
  · simp only [Region.take, text, Nat.add_comm 1, List.take_succ_cons, List.cons.injEq] at hw
    exact ⟨tail, by rw [hw.1]⟩

end Directive

/-! ## Between two parts -/

open Delimiter
open Grammar (isNamePart not_namePart_of_blank)

variable {keyword word : List Char} {last : Bool} {i j fuel : Nat} {depth n : Int} {c : Char}
  {cs rest : List Char} {found : Option Nat}

/-- A word of the characters of names, as keywords are. -/
structure Word (cs : List Char) : Prop where
  some : cs ≠ []
  parts : ∀ c ∈ cs, isNamePart c = true

theorem isQuote_of_namePart (h : isNamePart c = true) : isQuote c = false :=
  isQuote_of_test rfl rfl rfl h

theorem nesting_of_namePart (h : isNamePart c = true) : nesting c = 0 :=
  nesting_of_test rfl h

theorem not_asciiBlank_of_namePart (h : isNamePart c = true) : isAsciiBlank c = false := by
  by_contra blank
  have blank : isAsciiBlank c = true := by simpa using blank
  simp only [isAsciiBlank, Bool.or_eq_true, beq_iff_eq] at blank
  rcases blank with (((rfl | rfl) | rfl) | rfl) | rfl <;> cases h

/-- A keyword with a blank behind it stands at the front of a text. -/
def stands (keyword cs : List Char) : Bool :=
  keyword.isPrefixOf cs && ((cs.drop keyword.length).head?.map isAsciiBlank).getD false

/-- It does not where another word stands. -/
theorem not_stands_of_word (hk : Word keyword) (hw : Word word) (other : word ≠ keyword)
    (ended : ∀ c ∈ rest.head?, isNamePart c = false) : stands keyword (word ++ rest) = false := by
  by_contra there
  obtain ⟨begins, blank⟩ := Bool.and_eq_true_iff.1 (Bool.not_eq_false _ ▸ there)
  obtain ⟨tail, whole⟩ := List.isPrefixOf_iff_prefix.1 begins
  rw [← whole, List.drop_left] at blank
  -- both words are what the text has of the characters of names
  apply other
  have first : (word ++ rest).takeWhile isNamePart = word := by
    rw [List.takeWhile_append_of_pos hw.parts]
    cases rest with
    | nil => simp
    | cons c rest => simp [ended c rfl]
  have second : (keyword ++ tail).takeWhile isNamePart = keyword := by
    rw [List.takeWhile_append_of_pos hk.parts]
    cases tail with
    | nil => simp
    | cons c tail =>
      have stops : ¬ isNamePart c = true := by
        intro part
        rw [List.head?_cons, Option.map_some, not_asciiBlank_of_namePart part] at blank
        cases blank
      simp [stops]
  rw [← first, ← whole, second]

/-- Nor where a character stands that is not one of names. -/
theorem not_stands_of_mark (hk : Word keyword) (mark : isNamePart c = false) :
    stands keyword (c :: rest) = false := by
  obtain ⟨k, more, rfl⟩ := List.exists_cons_of_ne_nil hk.some
  have other : k ≠ c := by
    rintro rfl
    rw [hk.parts k List.mem_cons_self] at mark
    cases mark
  simp [stands, other]

/-- One step of the scan for a keyword, at a character that opens no string. -/
theorem findKeyword_cons (other : isQuote c = false) (afterBlank : Bool) :
    findKeyword keyword last (fuel + 1) i depth afterBlank (c :: rest) =
      let next := findKeyword keyword last fuel (i + 1) (depth + nesting c) (isAsciiBlank c) rest
      if nesting c = 0 ∧ depth = 0 ∧ afterBlank = true ∧ stands keyword (c :: rest) = true then
        if last then next <|> some i else some i
      else next := by
  rw [findKeyword]
  unfold nesting stands
  by_cases opening : (c == '(' || c == '[' || c == '{') = true
  · simp [opening]
  by_cases closing : (c == ')' || c == ']' || c == '}') = true
  · simp [opening, closing, Int.sub_eq_add_neg]
  rw [if_neg opening, if_neg closing, if_neg opening, if_neg closing, if_neg (by simp [other]), Int.add_zero]
  refine if_congr ?_ rfl rfl
  simp only [Bool.and_eq_true, decide_eq_true_eq]
  tauto

/-- The scan goes over a string. -/
theorem findKeyword_string {mark : Char} {text : List Char} (quote : isQuote mark = true)
    (inside : Enclosed (some mark) text) (afterBlank : Bool) :
    findKeyword keyword last (fuel + 1) i depth afterBlank (mark :: (text ++ mark :: rest)) =
      findKeyword keyword last fuel (i + (text.length + 2)) depth false rest := by
  have plain (b : Char) (hb : isQuote b = false) : (mark == b) = false :=
    beq_eq_false_iff_ne.2 (isQuote_ne quote hb).symm
  rw [findKeyword, (inside.goneOver quote).closeQuote]
  simp only [plain '(' rfl, plain '[' rfl, plain '{' rfl, plain ')' rfl, plain ']' rfl, plain '}' rfl, quote,
    Bool.or_self, Bool.false_eq_true, if_false, if_true, List.length_append, List.length_singleton]
  congr 1
  omega

/-- What the scan for a keyword finds from a place on, where brackets are so deep; how many steps it may
take and what stands in front do not matter. -/
def Scans (keyword : List Char) (last : Bool) (i : Nat) (depth : Int) (cs : List Char)
    (found : Option Nat) : Prop :=
  ∀ fuel afterBlank, cs.length < fuel → findKeyword keyword last fuel i depth afterBlank cs = found

namespace Scans

theorem nil : Scans keyword last i depth [] none := by
  intro fuel afterBlank hf
  cases fuel <;> rfl

/-- If the last place is looked for, what is found further behind counts. -/
theorem past {front : List Char} (hn : Nests n front)
    (h : Scans keyword true (i + front.length) (depth + n) rest (some j)) :
    Scans keyword true i depth (front ++ rest) (some j) := by
  induction hn generalizing i depth with
  | nil => simpa using h
  | @plain c front n other _ ih =>
    have behind : Scans keyword true (i + 1) (depth + nesting c) (front ++ rest) (some j) := by
      apply ih
      rwa [Int.add_assoc, Nat.add_assoc, Nat.add_comm 1]
    rintro (_ | fuel) afterBlank hf
    · cases hf
    -- should the keyword stand here, the place behind counts all the same
    · rw [List.cons_append, findKeyword_cons other]
      simp [behind fuel _ (by simpa using hf)]
  | @string mark text front n quote inside _ ih =>
    have length : i + (mark :: (text ++ mark :: front)).length = i + (text.length + 2) + front.length := by
      simp only [List.length_cons, List.length_append]
      omega
    rw [length] at h
    rintro (_ | fuel) afterBlank hf
    · cases hf
    · simp only [List.cons_append, List.append_assoc, List.length_cons, List.length_append] at hf ⊢
      rw [findKeyword_string quote inside]
      exact ih h fuel _ (by rw [List.length_append]; omega)

/-- A character that is not one of names, outside of strings. -/
theorem mark (hk : Word keyword) (other : isQuote c = false) (hc : isNamePart c = false)
    (h : Scans keyword last (i + 1) (depth + nesting c) rest found) :
    Scans keyword last i depth (c :: rest) found := by
  rintro (_ | fuel) afterBlank hf
  · cases hf
  · rw [findKeyword_cons other]
    simp only [not_stands_of_mark hk hc, Bool.false_eq_true, and_false, if_false]
    exact h fuel _ (by simpa using hf)

theorem blanks {blanks : List Char} (hk : Word keyword) (hb : ∀ c ∈ blanks, isBlank c = true)
    (h : Scans keyword last (i + blanks.length) depth rest found) :
    Scans keyword last i depth (blanks ++ rest) found := by
  induction blanks generalizing i with
  | nil => exact h
  | cons c blanks ih =>
    obtain ⟨blank, blanks⟩ := List.forall_mem_cons.1 hb
    refine .mark hk (isQuote_of_blank blank) (not_namePart_of_blank blank) ?_
    rw [nesting_of_test rfl blank, Int.add_zero]
    apply ih blanks
    rwa [Nat.add_assoc, Nat.add_comm 1]

/-- Where no blank stands in front, the characters of names are gone over. -/
theorem parts (hw : ∀ c ∈ word, isNamePart c = true)
    (h : Scans keyword last (i + word.length) depth rest found) :
    ∀ fuel, (word ++ rest).length < fuel →
      findKeyword keyword last fuel i depth false (word ++ rest) = found := by
  induction word generalizing i with
  | nil => exact fun fuel hf => h fuel false hf
  | cons c word ih =>
    obtain ⟨part, parts⟩ := List.forall_mem_cons.1 hw
    rintro (_ | fuel) hf
    · cases hf
    · rw [List.cons_append, findKeyword_cons (isQuote_of_namePart part)]
      simp only [Bool.false_eq_true, false_and, and_false, if_false, nesting_of_namePart part,
        Int.add_zero, not_asciiBlank_of_namePart part]
      refine ih parts ?_ fuel (by simpa using hf)
      rwa [Nat.add_assoc, Nat.add_comm 1]

/-- Another word than the keyword is gone over. -/
theorem another (hk : Word keyword) (hw : Word word) (other : word ≠ keyword)
    (ended : ∀ c ∈ rest.head?, isNamePart c = false)
    (h : Scans keyword last (i + word.length) depth rest found) :
    Scans keyword last i depth (word ++ rest) found := by
  have free := not_stands_of_word hk hw other ended
  obtain ⟨c, more, rfl⟩ := List.exists_cons_of_ne_nil hw.some
  obtain ⟨part, parts⟩ := List.forall_mem_cons.1 hw.parts
  rintro (_ | fuel) afterBlank hf
  · cases hf
  · rw [List.cons_append] at free ⊢
    rw [findKeyword_cons (isQuote_of_namePart part)]
    simp only [free, Bool.false_eq_true, and_false, if_false, nesting_of_namePart part, Int.add_zero,
      not_asciiBlank_of_namePart part]
    refine Scans.parts parts ?_ fuel (by simpa using hf)
    rwa [Nat.add_assoc, Nat.add_comm 1]

/-- The keyword between two blanks, outside of brackets, is found. If the last place is looked for, there
is none behind it. -/
theorem here (hk : Word keyword)
    (behind : last = true → Scans keyword last (i + 1 + keyword.length) 0 (' ' :: rest) none) :
    Scans keyword last i 0 (' ' :: (keyword ++ ' ' :: rest)) (some (i + 1)) := by
  have standing : stands keyword (keyword ++ ' ' :: rest) = true := by
    simp [stands, isAsciiBlank]
  have free : stands keyword (' ' :: (keyword ++ ' ' :: rest)) = false := not_stands_of_mark hk rfl
  obtain ⟨k, more, rfl⟩ := List.exists_cons_of_ne_nil hk.some
  obtain ⟨part, parts⟩ := List.forall_mem_cons.1 hk.parts
  rintro (_ | _ | fuel) afterBlank hf
  · cases hf
  · simp at hf
  · rw [findKeyword_cons rfl]
    simp only [free, Bool.false_eq_true, and_false, if_false]
    rw [List.cons_append] at standing ⊢
    rw [findKeyword_cons (isQuote_of_namePart part)]
    simp only [standing, nesting_of_namePart part, not_asciiBlank_of_namePart part, Int.add_zero]
    cases last with
    | false => rfl
    | true =>
      have length : i + 1 + (k :: more).length = i + 1 + 1 + more.length := by
        simp only [List.length_cons]
        omega
      have none := Scans.parts parts (length ▸ behind rfl) fuel (by
        simp only [List.length_cons, List.length_append] at hf ⊢
        omega)
      simp only [show nesting ' ' = 0 from rfl, Int.add_zero, none]
      rfl

end Scans

/-- The parts before and behind a keyword that is found. -/
theorem splitAtKeyword_eq {keyword : String} {last : Bool} {start : Nat} {front behind : List Char}
    (h : Scans keyword.toList last 0 0 (front ++ ' ' :: (keyword.toList ++ ' ' :: behind))
      (some (front.length + 1))) :
    splitAtKeyword keyword last ⟨start, front ++ ' ' :: (keyword.toList ++ ' ' :: behind)⟩ =
      some (⟨start, front ++ [' ']⟩,
        ⟨start + byteLength (front ++ ' ' :: keyword.toList), ' ' :: behind⟩) := by
  have before : front ++ ' ' :: (keyword.toList ++ ' ' :: behind) =
      (front ++ [' ']) ++ (keyword.toList ++ ' ' :: behind) := by simp
  have after : front ++ ' ' :: (keyword.toList ++ ' ' :: behind) =
      (front ++ ' ' :: keyword.toList) ++ ' ' :: behind := by simp
  have length : front.length + 1 = (front ++ [' ']).length := by simp
  have length' : front.length + 1 + keyword.length = (front ++ ' ' :: keyword.toList).length := by
    simp only [List.length_append, List.length_cons, String.length_toList]
    omega
  unfold splitAtKeyword Region.take Region.drop
  rw [h _ _ (Nat.lt_succ_self _), Option.map_some]
  dsimp only
  rw [length', after, List.take_left, List.drop_left, ← after, length, before, List.take_left]

end LiveTemplate.Markup
