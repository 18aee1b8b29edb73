/-
White space between the words of a directive. Space, tab, line feed, carriage return and form feed
separate the words alike: a braced part reads the same with any of them in the place of another. The
one exception stands behind `:else if`, where only a space and a tab are understood.
-/
import LiveTemplate.Proofs.Expr.Lexing
import LiveTemplate.Proofs.Location.Templates
import LiveTemplate.Proofs.Markup.Keywords

namespace LiveTemplate

open Text

/-! ## Blanks made even -/

namespace Text

/-- A character, with a space in the place of every ASCII blank. -/
def evenBlank (c : Char) : Char :=
  if isAsciiBlank c then ' ' else c

/-- A text with spaces in the place of its ASCII blanks. -/
def even (cs : List Char) : List Char :=
  cs.map evenBlank

variable {c k : Char} {cs : List Char}

/-- An ASCII blank is one of five characters. -/
theorem asciiBlank_cases (h : isAsciiBlank c = true) :
    c = ' ' ∨ c = '\t' ∨ c = '\n' ∨ c = '\x0c' ∨ c = '\r' := by
  simpa [isAsciiBlank, or_assoc] using h

theorem isBlank_of_ascii (h : isAsciiBlank c = true) : isBlank c = true := by
  rcases asciiBlank_cases h with rfl | rfl | rfl | rfl | rfl <;> rfl

theorem not_ascii_of_not_blank (h : isBlank c = false) : isAsciiBlank c = false := by
  by_contra blank
  rw [isBlank_of_ascii (by simpa using blank)] at h
  cases h

theorem evenBlank_of_not (h : isAsciiBlank c = false) : evenBlank c = c := by
  simp [evenBlank, h]

/-- A test that all ASCII blanks answer alike does not notice that blanks are made even. -/
theorem evenBlank_test {α : Type} (p : Char → α)
    (alike : p '\t' = p ' ' ∧ p '\n' = p ' ' ∧ p '\x0c' = p ' ' ∧ p '\r' = p ' ') (c : Char) :
    p (evenBlank c) = p c := by
  by_cases h : isAsciiBlank c = true
  · rw [evenBlank, if_pos h]
    obtain ⟨tab, feed, form, back⟩ := alike
    rcases asciiBlank_cases h with rfl | rfl | rfl | rfl | rfl
    · rfl
    · exact tab.symm
    · exact feed.symm
    · exact form.symm
    · exact back.symm
  · rw [evenBlank, if_neg h]

@[simp] theorem isBlank_evenBlank (c : Char) : isBlank (evenBlank c) = isBlank c :=
  evenBlank_test isBlank (by decide) c

@[simp] theorem isAsciiBlank_evenBlank (c : Char) : isAsciiBlank (evenBlank c) = isAsciiBlank c :=
  evenBlank_test isAsciiBlank (by decide) c

@[simp] theorem utf8Size_evenBlank (c : Char) : (evenBlank c).utf8Size = c.utf8Size :=
  evenBlank_test Char.utf8Size (by decide) c

/-- A character that is no blank stands where it stood. -/
theorem evenBlank_beq (hk : isAsciiBlank k = false) (c : Char) : (evenBlank c == k) = (c == k) := by
  have other (d : Char) (hd : isAsciiBlank d = true) : (d == k) = false := by
    rw [beq_eq_false_iff_ne]
    rintro rfl
    rw [hd] at hk
    cases hk
  refine evenBlank_test (· == k) ?_ c
  simp only [other '\t' rfl, other '\n' rfl, other '\x0c' rfl, other '\r' rfl, other ' ' rfl, and_self]

theorem evenBlank_eq_iff (hk : isAsciiBlank k = false) : evenBlank c = k ↔ c = k := by
  rw [← beq_iff_eq, evenBlank_beq hk, beq_iff_eq]

theorem evenBlank_idem (c : Char) : evenBlank (evenBlank c) = evenBlank c :=
  evenBlank_test evenBlank (by decide) c

theorem even_of_not (h : ∀ c ∈ cs, isAsciiBlank c = false) : even cs = cs := by
  rw [even, List.map_congr_left fun c hc => evenBlank_of_not (h c hc), List.map_id']

@[simp] theorem even_cons (c : Char) (cs : List Char) : even (c :: cs) = evenBlank c :: even cs :=
  rfl

@[simp] theorem even_nil : even [] = [] := rfl

theorem even_eq_cons (hk : isAsciiBlank k = false) {tail : List Char} :
    even cs = k :: tail ↔ ∃ rest, cs = k :: rest ∧ even rest = tail := by
  cases cs with
  | nil => simp
  | cons c cs => simp [evenBlank_eq_iff hk, and_assoc]

@[simp] theorem length_even (cs : List Char) : (even cs).length = cs.length :=
  List.length_map _

@[simp] theorem byteLength_even : ∀ cs : List Char, byteLength (even cs) = byteLength cs
  | [] => rfl
  | c :: cs => by rw [even_cons, byteLength, byteLength, utf8Size_evenBlank, byteLength_even cs]

theorem even_take (n : Nat) (cs : List Char) : (even cs).take n = even (cs.take n) :=
  List.map_take.symm

theorem even_drop (n : Nat) (cs : List Char) : (even cs).drop n = even (cs.drop n) :=
  List.map_drop.symm

/-- Characters are taken off at a test that does not notice that blanks are made even. -/
theorem even_takeWhile {p : Char → Bool} (hp : ∀ c, p (evenBlank c) = p c) (cs : List Char) :
    (even cs).takeWhile p = even (cs.takeWhile p) := by
  rw [even, List.takeWhile_map, show p ∘ evenBlank = p from funext hp]
  rfl

theorem even_trimEnd (cs : List Char) : trimEnd (even cs) = even (trimEnd cs) := by
  unfold trimEnd even
  rw [← List.map_reverse, List.dropWhile_map, List.map_reverse,
    show isBlank ∘ evenBlank = isBlank from funext isBlank_evenBlank]

end Text

namespace Region

/-- A region with spaces in the place of its ASCII blanks. -/
def even (r : Region) : Region :=
  ⟨r.start, Text.even r.text⟩

variable (r : Region)

@[simp] theorem even_stop : r.even.stop = r.stop := by
  simp [stop, even]

@[simp] theorem even_span : r.even.span = r.span := by
  simp only [span, even_stop]
  rfl

theorem even_take (n : Nat) : r.even.take n = (r.take n).even := by
  simp [take, even, Text.even_take]

theorem even_drop (n : Nat) : r.even.drop n = (r.drop n).even := by
  simp [drop, even, Text.even_drop, Text.even_take]

theorem even_dropBlanks : r.even.dropWhile isBlank = (r.dropWhile isBlank).even := by
  unfold dropWhile
  rw [even_drop]
  simp [even, even_takeWhile isBlank_evenBlank]

theorem even_trim : r.even.trim = r.trim.even := by
  unfold trim
  rw [even_dropBlanks]
  simp [even, even_trimEnd]

theorem even_isEmpty : r.even.isEmpty = r.isEmpty := by
  simp [isEmpty, even, Text.even]

theorem even_of_word {r : Region} (h : ∀ c ∈ r.text, isBlank c = false) : r.even = r := by
  unfold even
  rw [even_of_not fun c hc => not_ascii_of_not_blank (h c hc)]

end Region

/-! ## Delimiters -/

namespace Delimiter

theorem isQuote_evenBlank (c : Char) : isQuote (evenBlank c) = isQuote c :=
  evenBlank_test isQuote (by decide) c

/-- The parts before and behind a character that closes something. -/
def evenParts (parts : List Char × List Char) : List Char × List Char :=
  (even parts.1, even parts.2)

/-- Strings open at marks that are no blanks. -/
def Frame.marked : Frame → Bool
  | .quote _ mark | .value _ mark => !isAsciiBlank mark
  | .brace .. | .tag _ => true

variable {c : Char} {frame : Frame} {frames : List Frame}

theorem not_asciiBlank_of_quote (h : isQuote c = true) : isAsciiBlank c = false := by
  unfold isQuote at h
  simp only [Bool.or_eq_true, beq_iff_eq] at h
  rcases h with (rfl | rfl) | rfl <;> rfl

/-- A blank neither opens nor closes anything. -/
theorem step_blank (hc : isAsciiBlank c = true) (hf : frame.marked = true) (pos : Nat) :
    step pos c frame frames = frame :: frames := by
  have other (k : Char) (hk : isAsciiBlank k = false) : (c == k) = false := by
    rw [beq_eq_false_iff_ne]
    rintro rfl
    rw [hc] at hk
    cases hk
  unfold Frame.marked at hf
  cases frame with
  | brace =>
    simp [step, isQuote, other '{' rfl, other '}' rfl, other '"' rfl, other '\'' rfl, other '\x60' rfl]
  | quote _ mark => simp [step, other mark (by simpa using hf)]
  | value _ mark => simp [step, other mark (by simpa using hf)]
  | tag => simp [step, other '>' rfl, other '"' rfl, other '\'' rfl, other '{' rfl]

theorem step_even (h : frame.marked = true) (pos : Nat) (c : Char) :
    step pos (evenBlank c) frame frames = step pos c frame frames := by
  by_cases hc : isAsciiBlank c = true
  · rw [step_blank hc h, step_blank ((isAsciiBlank_evenBlank c).trans hc) h]
  · rw [evenBlank_of_not (by simpa using hc)]

theorem step_marked (h : ∀ f ∈ frame :: frames, f.marked = true) (pos : Nat) (c : Char) :
    ∀ f ∈ step pos c frame frames, f.marked = true := by
  obtain ⟨hf, hr⟩ := List.forall_mem_cons.1 h
  have quote : isQuote c = true → Frame.marked (.quote pos c) = true := by
    intro hc
    simp [Frame.marked, not_asciiBlank_of_quote hc]
  have value : (c == '"' || c == '\'') = true → Frame.marked (.value pos c) = true := by
    intro hc
    simp [Frame.marked, not_asciiBlank_of_quote (c := c) (by simp [isQuote, hc])]
  unfold step
  split
  all_goals grind [Frame.marked]

theorem map_evenParts_prepend (l : List Char) (r : Except Unclosed (List Char × List Char)) :
    (r.map evenParts).map (prepend (even l)) = (r.map (prepend l)).map evenParts := by
  rcases r with _ | ⟨inside, rest⟩
  · rfl
  · simp [Except.map, evenParts, prepend, even]

theorem close_even (frames : List Frame) (pos : Nat) (cs : List Char)
    (h : ∀ f ∈ frames, f.marked = true) :
    close frames pos (even cs) = (close frames pos cs).map evenParts := by
  fun_induction close frames pos cs with
  | case1 => rw [close]; rfl
  | case2 => rw [even_nil, close]; rfl
  | case3 opened mark frames pos => rfl
  | case4 opened mark frames pos c rest ih =>
    show close _ pos ('\\' :: evenBlank c :: even rest) = _
    rw [close_guarded, utf8Size_evenBlank, ih h]
    exact map_evenParts_prepend ['\\', c] _
  | case5 opened mark frames pos rest more more' ih =>
    show close _ pos ('$' :: '{' :: even rest) = _
    rw [close_dollar]
    have inner : ∀ f ∈ more', f.marked = true := by
      unfold more'
      split
      · exact List.forall_mem_cons.2 ⟨rfl, h⟩
      · exact h
    exact (congrArg _ (ih inner)).trans (map_evenParts_prepend ['$', '{'] _)
  | case6 frame frames pos c rest guard dollar ih =>
    have step : close (frame :: frames) pos (even (c :: rest)) =
        (close (step pos (evenBlank c) frame frames) (pos + (evenBlank c).utf8Size)
          (even rest)).map (prepend [evenBlank c]) := by
      rw [even_cons, close]
      · rfl
      · intro opened mark hf hc
        exact guard opened mark hf ((evenBlank_eq_iff rfl).1 hc)
      · intro opened mark more hf hc hr
        obtain ⟨more, hr, -⟩ := (even_eq_cons rfl).1 hr
        exact dollar opened mark more hf ((evenBlank_eq_iff rfl).1 hc) hr
    rw [step, utf8Size_evenBlank, step_even (h _ List.mem_cons_self), ih (step_marked h pos c)]
    exact map_evenParts_prepend [c] _

theorem closeQuote_even {mark : Char} (hm : isQuote mark = true) (opened : Nat) (rest : List Char) :
    closeQuote opened mark (even rest) = (closeQuote opened mark rest).map evenParts := by
  refine close_even _ _ rest (List.forall_mem_singleton.2 ?_)
  simp [Frame.marked, not_asciiBlank_of_quote hm]

end Delimiter

namespace Grammar

/-- The operator at the front does not depend on the kind of the blanks behind it. -/
theorem symbol?_of_even {cs cs' : List Char} {found : Token × Nat} (same : even cs' = even cs)
    (h : symbol? cs = some found) : symbol? cs' = some found := by
  have begins {k : Char} (hk : isAsciiBlank k = false) {tail tail' : List Char}
      (same : even tail' = even tail) : (∃ r, tail' = k :: r) ↔ ∃ r, tail = k :: r := by
    have iff (cs : List Char) : (∃ r, cs = k :: r) ↔ ∃ r, even cs = k :: r := by
      simp only [even_eq_cons hk]
      exact ⟨fun ⟨r, h⟩ => ⟨_, r, h, rfl⟩, fun ⟨_, r, h, _⟩ => ⟨r, h⟩⟩
    rw [iff tail', iff tail, same]
  have digit {tail tail' : List Char} (same : even tail' = even tail) :
      tail'.head?.map isAsciiDigit = tail.head?.map isAsciiDigit := by
    have even (cs : List Char) : (even cs).head?.map isAsciiDigit = cs.head?.map isAsciiDigit := by
      cases cs with
      | nil => rfl
      | cons c _ => exact congrArg some (evenBlank_test isAsciiDigit (by decide) c)
    rw [← even tail', ← even tail, same]
  unfold symbol? at h
  split at h
  case h_30 => cases h
  all_goals
    simp only [even_cons, evenBlank_of_not, even_eq_cons, isAsciiBlank, Char.reduceBEq, Bool.or_self] at same
  case h_1 | h_2 =>
    obtain ⟨_, rfl, _, rfl, _, rfl, same⟩ := same
    exact h
  case h_5 | h_6 | h_7 | h_8 | h_9 | h_10 =>
    obtain ⟨_, rfl, _, rfl, same⟩ := same
    exact h
  -- the operators that begin other ones
  case h_3 | h_4 =>
    obtain ⟨_, rfl, _, rfl, same⟩ := same
    have equals := begins (k := '=') rfl same
    simp_all [symbol?]
  case h_11 =>
    obtain ⟨_, rfl, _, rfl, same⟩ := same
    rwa [symbol?, digit same]
  case h_29 =>
    obtain ⟨_, rfl, same⟩ := same
    rwa [symbol?, digit same]
  case h_12 =>
    obtain ⟨_, rfl, same⟩ := same
    have question := begins (k := '?') rfl same
    have point := begins (k := '.') rfl same
    simp_all [symbol?]
  case h_21 | h_27 | h_28 =>
    obtain ⟨_, rfl, same⟩ := same
    have equals := begins (k := '=') rfl same
    simp_all [symbol?]
  all_goals
    obtain ⟨_, rfl, same⟩ := same
    exact h

theorem symbol?_even (cs : List Char) : symbol? (even cs) = symbol? cs := by
  have same : even (even cs) = even cs := by simp [even, evenBlank_idem]
  ext found
  exact ⟨symbol?_of_even same.symm, symbol?_of_even same⟩

/-- A token with spaces in the place of the blanks in a string. -/
def Token.even : Token → Token
  | string body => .string (Text.even body)
  | template body => .template (Text.even body)
  | t => t

theorem numeralTail_even : ∀ (prev : Char) (cs : List Char),
    numeralTail prev (even cs) = numeralTail prev cs
  | _, [] => rfl
  | prev, c :: rest => by
    rw [even_cons, numeralTail, numeralTail]
    by_cases hc : isAsciiBlank c = true
    · rcases asciiBlank_cases hc with rfl | rfl | rfl | rfl | rfl <;> rfl
    · rw [evenBlank_of_not (by simpa using hc), numeralTail_even c rest]

theorem namePart_even (cs : List Char) : (even cs).takeWhile isNamePart = cs.takeWhile isNamePart := by
  rw [even_takeWhile (evenBlank_test isNamePart (by decide))]
  exact even_of_not fun c hc =>
    not_ascii_of_not_blank (not_blank_of_namePart (List.mem_takeWhile_imp hc))

theorem symbol?_plainly {cs : List Char} {t : Token} {n : Nat} (h : symbol? cs = some (t, n)) :
    t.even = t := by
  have body := symbol?_body h
  cases t <;> first | rfl | cases body

/-- The token at the front is the same, with other blanks in a string. -/
theorem token_even {c : Char} (hc : isBlank c = false) (start stop : Nat) (rest : List Char) :
    token start stop (evenBlank c) (even rest) =
      (token start stop c rest).map fun (t, n) => (t.even, n) := by
  have plain : evenBlank c = c := evenBlank_of_not (not_ascii_of_not_blank hc)
  have front : symbol? (c :: even rest) = symbol? (c :: rest) := by
    rw [← symbol?_even (c :: rest), even_cons, plain]
  unfold token
  rw [plain, front, namePart_even, numeralTail_even]
  rcases hs : symbol? (c :: rest) with _ | ⟨t, n⟩
  · by_cases hq : Delimiter.isQuote c = true
    · simp only [if_pos hq, Delimiter.closeQuote_even hq]
      rcases Delimiter.closeQuote start c rest with _ | ⟨inside, after⟩
      · rfl
      · simp only [Except.map, Delimiter.evenParts, length_even]
        rw [show (Text.even inside).dropLast = Text.even inside.dropLast from List.map_dropLast.symm]
        by_cases template : c = '\x60'
        · simp [template, Token.even]
        · simp [template, Token.even]
    · simp only [if_neg hq]
      split
      · rfl
      · split <;> rfl
  · simp only [Except.map, symbol?_plainly hs]

/-- A lexeme with spaces in the place of the blanks in a string. -/
def Lexeme.even (t : Lexeme) : Lexeme :=
  ⟨t.token.even, t.span⟩

/-- The tokens are the same, with other blanks in the strings. -/
theorem tokens_even : ∀ (fuel : Nat) (r : Region),
    tokens fuel r.even = (tokens fuel r).map (List.map Lexeme.even)
  | 0, _ => rfl
  | fuel + 1, r => by
    rw [tokens, tokens, Region.even_dropBlanks]
    have head := head?_trimStart r.text
    rw [← show (r.dropWhile isBlank).text = trimStart r.text from Region.dropWhile_text ..] at head
    generalize r.dropWhile isBlank = here at head ⊢
    obtain ⟨start, _ | ⟨c, rest⟩⟩ := here
    · rfl
    have hc : isBlank c = false := head c rfl
    show (do
      let (found, length) ← token start (Region.even ⟨start, c :: rest⟩).stop (evenBlank c)
        (Text.even rest)
      let others ← tokens fuel ((Region.even ⟨start, c :: rest⟩).drop length)
      .ok (⟨found, ((Region.even ⟨start, c :: rest⟩).take length).span⟩ :: others)) =
        Except.map (List.map Lexeme.even) (do
          let (found, length) ← token start (Region.stop ⟨start, c :: rest⟩) c rest
          let others ← tokens fuel (Region.drop length ⟨start, c :: rest⟩)
          .ok (⟨found, (Region.take length ⟨start, c :: rest⟩).span⟩ :: others))
    rw [Region.even_stop, token_even hc]
    rcases token start (Region.stop ⟨start, c :: rest⟩) c rest with fault | ⟨t, n⟩
    · rfl
    show (tokens fuel ((Region.even ⟨start, c :: rest⟩).drop n) >>= _) = _
    rw [Region.even_drop, tokens_even fuel, Region.even_take, Region.even_span]
    show _ = Except.map (List.map Lexeme.even) (tokens fuel (Region.drop n ⟨start, c :: rest⟩) >>= _)
    rcases tokens fuel (Region.drop n ⟨start, c :: rest⟩) with fault | others
    · rfl
    · rfl

theorem tokenize_even (r : Region) : tokenize r.even = (tokenize r).map (List.map Lexeme.even) := by
  rw [tokenize, tokenize, tokens_even]
  simp [Region.even]

end Grammar

namespace Markup

open Delimiter
open Grammar (Lexeme)

/-! ## Loop headers -/

theorem loopParams_even (ts : List Lexeme) : loopParams (ts.map .even) = loopParams ts := by
  fun_induction loopParams ts with
  | case1 => rfl
  | case2 => rfl
  | case3 name span span' rest ih =>
    show Except.map _ (loopParams (rest.map .even)) = _
    rw [ih]
  | case4 name span t rest other =>
    obtain ⟨token, _⟩ := t
    cases token with
    | comma => exact (other _ rfl).elim
    | _ => rfl
  | case5 t rest alone _ more =>
    obtain ⟨token, _⟩ := t
    cases token with
    | ident =>
      cases rest with
      | nil => exact (alone _ _ rfl rfl).elim
      | cons => exact (more _ _ _ _ rfl rfl).elim
    | _ => rfl

theorem unbracket_even (ts : List Lexeme) :
    unbracket (ts.map .even) = (unbracket ts).map (List.map .even) := by
  have tokens (o : Option Lexeme) : (o.map Lexeme.even).map Lexeme.token =
      (o.map Lexeme.token).map Grammar.Token.even := by
    cases o <;> rfl
  have inside : ((ts.map Lexeme.even).drop 1).dropLast = ((ts.drop 1).dropLast).map .even := by
    rw [← List.map_drop, List.map_dropLast]
  unfold unbracket
  rw [List.head?_map, List.getLast?_map, tokens, tokens, inside]
  generalize ts.head?.map Lexeme.token = first, ts.getLast?.map Lexeme.token = last
  rcases first with _ | t
  · rfl
  cases t with
  | openParen | openBracket =>
    rcases last with _ | t
    · rfl
    · cases t <;> rfl
  | _ => rfl

theorem parseBinding_even (r : Region) : parseBinding r.even = parseBinding r := by
  unfold parseBinding
  rw [Grammar.tokenize_even, Region.even_span]
  rcases Grammar.tokenize r with fault | ts
  · rfl
  have inner : ((unbracket ts).map (List.map Lexeme.even)).getD (ts.map .even) =
      ((unbracket ts).getD ts).map Lexeme.even := by
    cases unbracket ts <;> rfl
  show (loopParams ((unbracket (ts.map .even)).getD (ts.map .even)) >>= _) = (loopParams _ >>= _)
  simp only [unbracket_even, inner, loopParams_even, List.length_map, Option.isSome_map]

variable {keyword : List Char}

theorem isPrefixOf_even : ∀ {keyword : List Char}, (∀ k ∈ keyword, isAsciiBlank k = false) →
    ∀ cs, keyword.isPrefixOf (even cs) = keyword.isPrefixOf cs
  | [], _, _ => rfl
  | _ :: _, _, [] => rfl
  | k :: keyword, h, c :: cs => by
    obtain ⟨hk, hr⟩ := List.forall_mem_cons.1 h
    rw [even_cons, List.isPrefixOf, List.isPrefixOf, isPrefixOf_even hr, Bool.beq_comm,
      evenBlank_beq hk, Bool.beq_comm]

/-- A keyword stands where it stood. -/
theorem findKeyword_even (hk : ∀ k ∈ keyword, isAsciiBlank k = false) (last : Bool) :
    ∀ (fuel i : Nat) (depth : Int) (afterBlank : Bool) (cs : List Char),
      findKeyword keyword last fuel i depth afterBlank (even cs) =
        findKeyword keyword last fuel i depth afterBlank cs
  | 0, _, _, _, _ => rfl
  | _ + 1, _, _, _, [] => rfl
  | fuel + 1, i, depth, afterBlank, c :: rest => by
    have test {k : Char} (hk : isAsciiBlank k = false) : (evenBlank c == k) = (c == k) := evenBlank_beq hk c
    have front : keyword.isPrefixOf (evenBlank c :: even rest) = keyword.isPrefixOf (c :: rest) :=
      isPrefixOf_even hk (c :: rest)
    have behind : ((evenBlank c :: even rest).drop keyword.length).head?.map isAsciiBlank =
        ((c :: rest).drop keyword.length).head?.map isAsciiBlank := by
      rw [← even_cons, Text.even_drop]
      cases (c :: rest).drop keyword.length <;> simp
    have quote : isQuote c = true → closeQuote 0 (evenBlank c) (even rest) =
        (closeQuote 0 c rest).map evenParts := by
      intro hq
      rw [evenBlank_of_not (not_asciiBlank_of_quote hq), closeQuote_even hq]
    rw [even_cons, findKeyword, findKeyword]
    simp only [test (k := '(') rfl, test (k := ')') rfl, test (k := '[') rfl, test (k := ']') rfl,
      test (k := '{') rfl, test (k := '}') rfl, isQuote_evenBlank, isAsciiBlank_evenBlank,
      findKeyword_even hk last fuel, front, behind]
    split
    · rfl
    split
    · rfl
    split
    next hq =>
      rw [quote hq]
      rcases closeQuote 0 c rest with _ | ⟨inside, after⟩
      · rfl
      · show findKeyword _ _ _ (i + 1 + (even inside).length) _ _ (even after) = _
        rw [length_even, findKeyword_even hk last fuel]
    next => rfl

theorem splitAtKeyword_even {keyword : String} (hk : ∀ k ∈ keyword.toList, isAsciiBlank k = false)
    (last : Bool) (r : Region) :
    splitAtKeyword keyword last r.even =
      (splitAtKeyword keyword last r).map fun (a, b) => (a.even, b.even) := by
  unfold splitAtKeyword
  show Option.map _ (findKeyword _ _ ((even r.text).length + 1) _ _ _ (even r.text)) = _
  rw [length_even, findKeyword_even hk, Option.map_map]
  simp only [Region.even_take, Region.even_drop]
  rfl

/-! ## Directives -/

namespace Directive

/-- A directive with spaces in the place of the blanks in its expressions. -/
def even : Directive → Directive
  | ifOpen r => ifOpen r.even
  | unlessOpen r => unlessOpen r.even
  | elseIf r => elseIf r.even
  | eachOpen r binding => eachOpen r.even binding
  | forOpen binding r => forOpen binding r.even
  | html r => html r.even
  | json r => json r.even
  | expression r => expression r.even
  | d => d

/-- What a directive is, apart from the texts of its expressions: its kind, its variables and the
spans of its expressions. -/
def outline (d : Directive) : String × Option LoopBinding × List Span :=
  (d.describe, d.binding?, d.regions.map Region.span)

theorem outline_even (d : Directive) : d.even.outline = d.outline := by
  cases d <;> simp [outline, even, describe, binding?, regions]

/-- The text of a braced part with a line break or form feed behind `:else if`. -/
def BreaksElseIf (text : List Char) : Prop :=
  ∃ (before between condition : List Char) (c : Char),
    text = before ++ (":else".toList ++ (between ++ ('i' :: 'f' :: c :: condition))) ∧
      (∀ b ∈ before, isBlank b = true) ∧ (∀ b ∈ between, isBlank b = true) ∧ between ≠ [] ∧
      c ∈ ['\n', '\r', '\x0c'] ∧ ∃ x ∈ condition, isBlank x = false

theorem BreaksElseIf.heads {r : Region} (h : BreaksElseIf r.text) :
    ∃ (rest : Region) (c : Char) (more : List Char), Heads r ":else" rest ∧
      rest.text = 'i' :: 'f' :: c :: more ∧ c ∈ ['\n', '\r', '\x0c'] := by
  obtain ⟨before, between, condition, c, text, hb, hg, gn, hc, x, hx, filled⟩ := h
  obtain ⟨blanks, eq, after⟩ := trimEnd_prefix condition
  have last := getLast?_trimEnd condition
  generalize trimEnd condition = test at eq last
  subst eq
  have some : test ≠ [] := by
    rintro rfl
    rw [after x hx] at filled
    cases filled
  have trimmed : Trimmed (['i', 'f', c] ++ test) := by
    refine ⟨fun d hd => by cases hd; rfl, fun d hd => last d ?_⟩
    rwa [List.getLast?_append_of_ne_nil _ some] at hd
  have heads := heads_of_text r.start hb
    (show ∀ c ∈ ":else".toList, isBlank c = false by simp; decide) (by simp) hg gn trimmed (by simp) after
  have whole : before ++ (":else".toList ++ (between ++ (['i', 'f', c] ++ test)) ++ blanks) = r.text := by
    rw [text]
    simp
  rw [whole, String.ofList_toList] at heads
  exact ⟨_, c, test, heads, rfl, hc⟩

theorem BreaksElseIf.of_heads {r rest : Region} (heads : Heads r ":else" rest) {c : Char}
    {more : List Char} (text : rest.text = 'i' :: 'f' :: c :: more) (hc : c ∈ ['\n', '\r', '\x0c']) :
    BreaksElseIf r.text := by
  obtain ⟨before, gap, after, whole, hb, hg, gn⟩ := heads.text
  have gn := gn (by simp [text])
  rw [text] at whole
  refine ⟨before, gap, more ++ after, c, by rw [whole]; simp, hb, hg, gn, hc, ?_⟩
  -- the rest does not end with the blank
  have trimmed := heads.trimmed.last
  rw [text] at trimmed
  cases more with
  | nil =>
    have blank := trimmed c rfl
    simp only [List.mem_cons, List.not_mem_nil, or_false] at hc
    rcases hc with rfl | rfl | rfl <;> cases blank
  | cons d more =>
    obtain ⟨x, hx⟩ := List.getLast?_isSome.2 (List.cons_ne_nil d more) |> Option.isSome_iff_exists.1
    refine ⟨x, List.mem_append_left _ (List.mem_of_getLast? hx), trimmed x ?_⟩
    simpa [List.getLast?_cons_cons] using hx

/-- What is read behind `:else`: nothing at all, `if` with a test, or something else. -/
def elseText {α : Type} (bare test other : α) : List Char → α
  | [] => bare
  | ['i', 'f'] => test
  | 'i' :: 'f' :: ' ' :: _ => test
  | 'i' :: 'f' :: '\t' :: _ => test
  | _ => other

theorem apply_elseText {α β : Type} (f : α → β) (bare test other : α) (text : List Char) :
    f (elseText bare test other text) = elseText (f bare) (f test) (f other) text := by
  unfold elseText
  split <;> rfl

/-- What is read does not depend on the kind of the blanks there, except for a line break or form feed
behind `if`: only a space and a tab are known in that place. -/
theorem elseText_even {α : Type} (bare test other : α) {text : List Char}
    (known : ∀ c more, text = 'i' :: 'f' :: c :: more → c ∉ ['\n', '\r', '\x0c']) :
    elseText bare test other (Text.even text) = elseText bare test other text := by
  unfold elseText
  split
  case h_1 heq =>
    cases text with
    | nil => rfl
    | cons => cases heq
  case h_2 heq =>
    obtain ⟨_, rfl, h⟩ := (even_eq_cons rfl).1 heq
    obtain ⟨more, rfl, h'⟩ := (even_eq_cons rfl).1 h
    cases more with
    | nil => rfl
    | cons => cases h'
  case h_3 heq =>
    obtain ⟨_, rfl, h⟩ := (even_eq_cons rfl).1 heq
    obtain ⟨more, rfl, h'⟩ := (even_eq_cons rfl).1 h
    cases more with
    | nil => cases h'
    | cons c more =>
      have blank : isAsciiBlank c = true := by
        rw [← isAsciiBlank_evenBlank, (List.cons.inj h').1]
        rfl
      rcases asciiBlank_cases blank with rfl | rfl | rfl | rfl | rfl
      · rfl
      · rfl
      all_goals exact (known _ _ rfl (by decide)).elim
  case h_4 heq =>
    obtain ⟨_, rfl, h⟩ := (even_eq_cons rfl).1 heq
    obtain ⟨more, rfl, h'⟩ := (even_eq_cons rfl).1 h
    cases more with
    | nil => cases h'
    | cons c more =>
      -- no tab is left
      have space := (List.cons.inj h').1
      have blank : isAsciiBlank c = true := by
        rw [← isAsciiBlank_evenBlank, space]
        rfl
      rw [evenBlank, if_pos blank] at space
      cases space
  case h_5 single bare space tab =>
    split
    case h_1 => exact (single rfl).elim
    case h_2 => exact (bare rfl).elim
    case h_3 => exact (space _ rfl).elim
    case h_4 => exact (space _ rfl).elim
    case h_5 => rfl

/-- Reading a braced part does not depend on the kind of its blanks, except behind `:else if`. -/
theorem parse_even {r : Region} (h : ¬BreaksElseIf r.text) :
    Directive.parse r.even = (Directive.parse r).map Directive.even := by
  have ok_bind {α β : Type} (a : α) (f : α → Except Fault β) : (Except.ok a >>= f) = f a := rfl
  have breaks (rest : Region) (heads : Heads r ":else" rest) (c : Char) (more : List Char)
      (text : rest.text = 'i' :: 'f' :: c :: more) : c ∉ ['\n', '\r', '\x0c'] :=
    fun hc => h (.of_heads heads text hc)
  unfold Directive.parse
  rw [Region.even_trim]
  rcases text : r.trim.text with _ | ⟨c, tail⟩
  · have even_text : r.trim.even.text = [] := by simp [Region.even, text]
    simp only [text, even_text]
    rfl
  have trimmed := trimmed_trim r.text
  rw [← Region.trim_text, text] at trimmed
  have hc : isBlank c = false := trimmed.head c rfl
  have even_text : r.trim.even.text = c :: Text.even tail := by
    simp [Region.even, text, evenBlank_of_not (not_ascii_of_not_blank hc)]
  have word : ((Text.even tail).takeWhile (!isBlank ·)).length = (tail.takeWhile (!isBlank ·)).length := by
    rw [even_takeWhile (fun c => by rw [isBlank_evenBlank]), length_even]
  have heads : Heads r (r.trim.take (1 + (tail.takeWhile (!isBlank ·)).length)).toString
      (r.trim.drop (1 + (tail.takeWhile (!isBlank ·)).length)).trim := by
    unfold Heads
    rw [text]
    exact ⟨rfl, rfl⟩
  have plain := Region.even_of_word (r := r.trim.take (1 + (tail.takeWhile (!isBlank ·)).length))
    (by simpa [Region.toString] using heads.word)
  simp only [text, even_text, List.drop_succ_cons, List.drop_zero, word, Region.even_take, Region.even_drop,
    Region.even_trim, Region.even_span, Region.even_isEmpty, plain]
  by_cases bare : (!(c == '#' || c == ':' || c == '/' || c == '@')) = true
  · rw [if_pos bare, if_pos bare]
    rfl
  rw [if_neg bare, if_neg bare]
  generalize (r.trim.drop (1 + (tail.takeWhile (!isBlank ·)).length)).trim = rest at heads ⊢
  generalize r.trim.take (1 + (tail.takeWhile (!isBlank ·)).length) = head at heads ⊢
  generalize r.trim.span = span
  generalize head.toString = keyword at heads ⊢
  clear plain even_text word text trimmed hc bare
  -- One keyword heads both, so they differ only in the blanks of what stands behind it.
  split
  case h_1 => split <;> rfl
  case h_2 => split <;> rfl
  case h_3 =>
    by_cases missing : rest.isEmpty = true
    · rw [if_pos missing, if_pos missing]
      rfl
    rw [if_neg missing, if_neg missing]
    simp only [ok_bind, splitAtKeyword_even (show ∀ k ∈ "as".toList, _ by simp [isAsciiBlank])]
    rcases splitAtKeyword "as" true rest with _ | ⟨collection, binding⟩
    · show (.error ⟨.missingAs, rest.even.span⟩ : Except Fault Directive) = _
      rw [Region.even_span]
      rfl
    · simp only [Option.map_some, Region.even_trim, parseBinding_even]
      rcases parseBinding binding.trim with _ | _ <;> rfl
  case h_4 =>
    by_cases missing : rest.isEmpty = true
    · rw [if_pos missing, if_pos missing]
      rfl
    rw [if_neg missing, if_neg missing]
    simp only [ok_bind, splitAtKeyword_even (show ∀ k ∈ "in".toList, _ by simp [isAsciiBlank])]
    rcases splitAtKeyword "in" false rest with _ | ⟨binding, collection⟩
    · show (.error ⟨.missingIn, rest.even.span⟩ : Except Fault Directive) = _
      rw [Region.even_span]
      rfl
    · simp only [Option.map_some, Region.even_trim, parseBinding_even, Region.even_isEmpty]
      rcases parseBinding binding.trim with _ | _
      · rfl
      · simp only [ok_bind]
        split <;> rfl
  case h_5 =>
    rw [show rest.even.text = Text.even rest.text from rfl]
    -- both take the same branch, and the tests they read there differ only in their blanks
    refine (elseText_even _ _ _ (breaks rest heads)).trans (Eq.trans ?_ (apply_elseText _ _ _ _ _).symm)
    congr 1
    split <;> rfl
  case h_6 => split <;> rfl
  case h_7 => split <;> rfl
  case h_8 => split <;> rfl
  case h_9 => split <;> rfl
  case h_10 => split <;> rfl
  case h_11 => split <;> rfl
  case h_12 => rfl

theorem Heads.even {braced rest : Region} {word : String} (h : Heads braced word rest) :
    Heads braced.even word rest.even := by
  have plain := h.word
  obtain ⟨rfl, rfl⟩ := h
  have length : ((braced.trim.even.text.drop 1).takeWhile (!isBlank ·)).length =
      ((braced.trim.text.drop 1).takeWhile (!isBlank ·)).length := by
    show (((Text.even braced.trim.text).drop 1).takeWhile (!isBlank ·)).length = _
    rw [Text.even_drop, even_takeWhile (fun c => by rw [isBlank_evenBlank]), length_even]
  unfold Heads
  rw [Region.even_trim]
  simp only [length, Region.even_take, Region.even_drop, Region.even_trim, and_true]
  rw [Region.even_of_word (by simpa [Region.toString] using plain)]

/-- What `:else if` is read as with a space behind it. -/
theorem parse_elseIf {r rest : Region} (heads : Heads r ":else" rest) {more : List Char}
    (text : rest.text = 'i' :: 'f' :: ' ' :: more) :
    Directive.parse r = Except.map elseIf (if (rest.drop 2).trim.isEmpty
      then .error ⟨.missingExpression ":else", r.trim.span⟩ else .ok (rest.drop 2).trim) := by
  obtain ⟨tail, front⟩ := heads.sigil (c := ':') (by simp; rfl)
  obtain ⟨word, rfl⟩ := heads
  rw [front] at word text
  unfold Directive.parse
  simp only [front, ← word, text]
  rfl

/-- With a line break or form feed there, it is an error. -/
theorem parse_breaks {r rest : Region} (heads : Heads r ":else" rest) {c : Char} {more : List Char}
    (text : rest.text = 'i' :: 'f' :: c :: more) (hc : c ∈ ['\n', '\r', '\x0c']) :
    Directive.parse r = .error ⟨.textAfterElse, rest.span⟩ := by
  obtain ⟨tail, front⟩ := heads.sigil (c := ':') (by simp; rfl)
  obtain ⟨word, rfl⟩ := heads
  rw [front] at word text
  unfold Directive.parse
  simp only [front, ← word, text]
  simp only [List.mem_cons, List.not_mem_nil, or_false] at hc
  rcases hc with rfl | rfl | rfl
  · rfl
  · rfl
  · rfl

/-- A braced part with another blank in the place of one is read as the same directive, with the same
variables and spans, or fails in the same way, unless only one of the two has a line break or form feed
behind `:else if`. -/
theorem parse_respaced (start : Nat) (front back : List Char) {w w' : Char}
    (hw : isAsciiBlank w = true) (hw' : isAsciiBlank w' = true) :
    (Directive.parse ⟨start, front ++ w :: back⟩).map outline =
        (Directive.parse ⟨start, front ++ w' :: back⟩).map outline ↔
      (BreaksElseIf (front ++ w :: back) ↔ BreaksElseIf (front ++ w' :: back)) := by
  have same : Text.even (front ++ w :: back) = Text.even (front ++ w' :: back) := by
    simp [Text.even, evenBlank, hw, hw']
  have read {text : List Char} (h : ¬BreaksElseIf text) :
      (Directive.parse ⟨start, text⟩).map outline =
        (Directive.parse ⟨start, Text.even text⟩).map outline := by
    have parsed := parse_even (r := ⟨start, text⟩) h
    rw [show Directive.parse ⟨start, Text.even text⟩ = _ from parsed]
    rcases Directive.parse ⟨start, text⟩ with fault | d
    · rfl
    · simp [Except.map, outline_even]
  have fails {text : List Char} (h : BreaksElseIf text) : ∃ (rest : Region) (more : List Char),
      Directive.parse ⟨start, text⟩ = .error ⟨.textAfterElse, rest.span⟩ ∧
        Heads ⟨start, Text.even text⟩ ":else" rest.even ∧
          rest.even.text = 'i' :: 'f' :: ' ' :: more := by
    obtain ⟨rest, c, more, heads, text, hc⟩ := BreaksElseIf.heads (r := ⟨start, text⟩) h
    refine ⟨rest, Text.even more, parse_breaks heads text hc, heads.even, ?_⟩
    show Text.even rest.text = _
    rw [text]
    simp only [List.mem_cons, List.not_mem_nil, or_false] at hc
    rcases hc with rfl | rfl | rfl <;> rfl
  have differs {text : List Char} (h : BreaksElseIf text) :
      (Directive.parse ⟨start, text⟩).map outline ≠
        (Directive.parse ⟨start, Text.even text⟩).map outline := by
    obtain ⟨rest, more, fails, heads, text⟩ := fails h
    rw [fails, parse_elseIf heads text]
    split <;> simp [Except.map]
  -- Both have one even text, and only a text that breaks `:else if` is read otherwise than its even text.
  generalize front ++ w :: back = text at same ⊢
  generalize front ++ w' :: back = text' at same ⊢
  by_cases h : BreaksElseIf text
  · by_cases h' : BreaksElseIf text'
    · simp only [h, h', iff_true]
      obtain ⟨rest, more, fail, heads, -⟩ := fails h
      obtain ⟨rest', more', fail', heads', -⟩ := fails h'
      have spans : rest.span = rest'.span := by
        rw [← same] at heads'
        rw [← Region.even_span rest, ← Region.even_span rest', heads.2, heads'.2]
      rw [fail, fail', spans]
    · simp only [h, h', iff_false, not_true_eq_false]
      rw [read h', ← same]
      exact differs h
  · by_cases h' : BreaksElseIf text'
    · simp only [h, h', iff_true]
      rw [read h, same]
      exact iff_of_false (differs h').symm not_false
    · simp only [h, h', iff_true]
      rw [read h, read h', same]

/-- A line feed in front of the loop variables. -/
theorem parse_respaced_each :
    isAsciiBlank ' ' = true ∧ isAsciiBlank '\n' = true ∧
      Directive.parse ⟨1, "#each xs as (k, v)".toList⟩ =
        .ok (eachOpen ⟨7, ['x', 's']⟩ ⟨["k", "v"], none, true⟩) ∧
      (Directive.parse ⟨1, "#each xs as (k, v)".toList⟩).map outline =
        (Directive.parse ⟨1, "#each xs as\n(k, v)".toList⟩).map outline := by
  have other {text : List Char} (h : (Region.trim ⟨1, text⟩).text.head? = some '#') :
      ¬BreaksElseIf text := by
    intro breaks
    obtain ⟨rest, _, _, heads, -⟩ := BreaksElseIf.heads (r := ⟨1, text⟩) breaks
    obtain ⟨tail, front⟩ := heads.sigil (c := ':') (by simp; rfl)
    rw [front] at h
    cases h
  refine ⟨rfl, rfl, by decide +kernel, ?_⟩
  exact (parse_respaced 1 "#each xs as".toList "(k, v)".toList (show isAsciiBlank ' ' = true from rfl)
    (show isAsciiBlank '\n' = true from rfl)).2
    (iff_of_false (other (by decide +kernel)) (other (by decide +kernel)))

/-- Behind `:else if` a line feed is no blank. -/
theorem parse_else_break :
    isAsciiBlank ' ' = true ∧ isAsciiBlank '\n' = true ∧
      Directive.parse ⟨9, ":else if b".toList⟩ = .ok (elseIf ⟨18, ['b']⟩) ∧
      Directive.parse ⟨9, ":else if\nb".toList⟩ = .error ⟨.textAfterElse, ⟨15, 19⟩⟩ := by
  refine ⟨rfl, rfl, ?_, ?_⟩
  · decide +kernel
  · decide +kernel

end Directive

end Markup

end LiveTemplate
