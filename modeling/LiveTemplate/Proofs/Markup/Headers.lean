/-
Loop headers. A header is divided by a scan for the keyword that knows of strings and brackets alone. It
divides every header where it was put together of an expression and loop variables, whatever words stand
in the expression: what is read as an expression has its strings closed and its brackets paired, so the
scan comes to the keyword outside of both, and no loop variable is taken for the keyword.
-/
import LiveTemplate.Proofs.Markup.Respacing

namespace LiveTemplate.Markup

open Text Delimiter
open Grammar (Lexes Ended Lexeme isNamePart not_namePart_of_blank)

/-! ## Loop variables -/

/-- Names with commas between them, around which blanks may stand. -/
inductive Listed : List String → List Char → Prop
  | one {name : String} : isName name = true → Listed [name] name.toList
  | more {name : String} {names : List String} {before after text : List Char} : isName name = true →
    (∀ c ∈ before, isBlank c = true) → (∀ c ∈ after, isBlank c = true) → Listed names text →
    Listed (name :: names) (name.toList ++ (before ++ ',' :: (after ++ text)))

/-- The loop variables of a header as they are written: a list of names, alone or between brackets. -/
inductive Variables : LoopBinding → List Char → Prop
  | bare {names : List String} {text : List Char} : Listed names text →
    Variables ⟨names, if names.length = 1 then some implicitIndex else none, false⟩ text
  | bracketed {names : List String} {opening closing : Char} {before text after : List Char} :
    (opening, closing) ∈ [('(', ')'), ('[', ']')] → (∀ c ∈ before, isBlank c = true) →
    (∀ c ∈ after, isBlank c = true) → Listed names text →
    Variables ⟨names, none, true⟩ (opening :: (before ++ (text ++ (after ++ [closing]))))

/-- The tokens of names with commas between them. -/
def nameTokens : List String → List Grammar.Token
  | [] => []
  | [name] => [.ident name]
  | name :: names => .ident name :: .comma :: nameTokens names

theorem word_of_isName {name : String} (h : isName name = true) : Word name.toList := by
  obtain ⟨c, more, text, start, parts⟩ := isName_chars h
  rw [text]
  exact ⟨by simp, List.forall_mem_cons.2 ⟨isNamePart_of_start start, parts⟩⟩

theorem Word.trimmed {cs : List Char} (h : Word cs) : Trimmed cs :=
  trimmed_of_word fun c hc => Grammar.not_blank_of_namePart (h.parts c hc)

/-- Behind blanks a name does not go on with a character that is none of names. -/
theorem ended_of_blanks {blanks rest : List Char} (hb : ∀ c ∈ blanks, isBlank c = true)
    (hr : Ended rest) : Ended (blanks ++ rest) := by
  cases blanks with
  | nil => exact hr
  | cons c blanks =>
    have blank := hb c List.mem_cons_self
    rintro d ⟨⟩
    exact ⟨not_namePart_of_blank blank, ne_of_test blank rfl, ne_of_test blank rfl⟩

theorem lexes_blanks {blanks rest : List Char} {ts : List Grammar.Token}
    (hb : ∀ c ∈ blanks, isBlank c = true) (h : Lexes rest ts) : Lexes (blanks ++ rest) ts := by
  induction blanks with
  | nil => exact h
  | cons c blanks ih =>
    obtain ⟨blank, blanks⟩ := List.forall_mem_cons.1 hb
    exact .blank blank (ih blanks)

/-- A bracket that opens loop variables and the one that closes them, with their tokens. -/
structure Brackets (opening closing : Char) (o c : Grammar.Token) : Prop where
  tokens : (o, c) ∈ [(.openParen, .closeParen), (.openBracket, .closeBracket)]
  opens (rest : List Char) : Grammar.symbol? (opening :: rest) = some (o, 1)
  closes (rest : List Char) : Grammar.symbol? (closing :: rest) = some (c, 1)
  nesting : nesting opening = 1 ∧ nesting closing = -1
  ended (rest : List Char) : Ended (closing :: rest)
  plain : ∀ d ∈ [opening, closing], isBlank d = false ∧ isQuote d = false ∧ isNamePart d = false

theorem exists_brackets {opening closing : Char} (h : (opening, closing) ∈ [('(', ')'), ('[', ']')]) :
    ∃ o c, Brackets opening closing o c := by
  simp only [List.mem_cons, List.not_mem_nil, or_false, Prod.mk.injEq] at h
  rcases h with ⟨rfl, rfl⟩ | ⟨rfl, rfl⟩
  · exact ⟨.openParen, .closeParen, by simp, fun _ => rfl, fun _ => rfl, ⟨rfl, rfl⟩,
      fun rest => .cons rest (by simp), by simp; exact ⟨⟨rfl, rfl, rfl⟩, rfl, rfl, rfl⟩⟩
  · exact ⟨.openBracket, .closeBracket, by simp, fun _ => rfl, fun _ => rfl, ⟨rfl, rfl⟩,
      fun rest => .cons rest (by simp), by simp; exact ⟨⟨rfl, rfl, rfl⟩, rfl, rfl, rfl⟩⟩

namespace Listed

variable {names : List String} {text rest : List Char} {ts : List Grammar.Token}

theorem cons (h : Listed names text) : ∃ name others, names = name :: others := by
  cases h with
  | one => exact ⟨_, _, rfl⟩
  | more => exact ⟨_, _, rfl⟩

theorem trimmed (h : Listed names text) : Trimmed text ∧ text ≠ [] := by
  induction h with
  | one hn => exact ⟨(word_of_isName hn).trimmed, (word_of_isName hn).some⟩
  | @more name _ before after text hn _ _ _ ih =>
    obtain ⟨trimmed, some⟩ := ih
    have word := word_of_isName hn
    constructor
    · have whole := word.trimmed.enclose word.some (before ++ ',' :: after) trimmed some
      simpa using whole
    · simp [word.some]

/-- A list of names is cut into the names and the commas. -/
theorem lexes (h : Listed names text) (hr : Ended rest) (hl : Lexes rest ts) :
    Lexes (text ++ rest) (nameTokens names ++ ts) := by
  induction h with
  | one hn => exact .ident hn hr hl
  | @more name names before after text hn hb ha h ih =>
    obtain ⟨second, others, rfl⟩ := h.cons
    simp only [List.append_assoc, List.cons_append]
    refine .ident hn (ended_of_blanks hb (.cons _ (by simp))) (lexes_blanks hb (.mark rfl rfl ?_))
    exact lexes_blanks ha ih

/-- The scan for a keyword goes over a list of other names. -/
theorem scans {keyword : String} {last : Bool} {i : Nat} {depth : Int} {found : Option Nat}
    (hk : Word keyword.toList) (h : Listed names text) (other : keyword ∉ names)
    (ended : ∀ c ∈ rest.head?, isNamePart c = false)
    (hs : Scans keyword.toList last (i + text.length) depth rest found) :
    Scans keyword.toList last i depth (text ++ rest) found := by
  have differs {name : String} (hn : keyword ≠ name) : name.toList ≠ keyword.toList :=
    fun same => hn (String.toList_inj.1 same).symm
  induction h generalizing i with
  | one hn => exact .another hk (word_of_isName hn) (differs (by simpa using other)) ended hs
  | @more name names before after text hn hb ha h ih =>
    obtain ⟨first, others⟩ := not_or.1 (fun h => other (List.mem_cons.2 h))
    have comma := ended_of_blanks hb (.cons (c := ',') (after ++ (text ++ rest)) (by simp))
    simp only [List.append_assoc, List.cons_append]
    refine .another hk (word_of_isName hn) (differs first) (fun c hc => (comma c hc).1) ?_
    refine .blanks hk hb (.mark hk rfl rfl (.blanks hk ha ?_))
    rw [show nesting ',' = 0 from rfl, Int.add_zero]
    refine ih others ?_
    convert hs using 1
    simp only [List.length_append, List.length_cons]
    omega

end Listed

theorem loopParams_names {names : List String} {ts : List Lexeme}
    (h : ts.map Lexeme.token = nameTokens names) : loopParams ts = .ok names := by
  fun_induction nameTokens names generalizing ts with
  | case1 =>
    obtain rfl := List.map_eq_nil_iff.1 h
    rfl
  | case2 name =>
    obtain ⟨⟨_, span⟩, rest, rfl, rfl, none⟩ := List.map_eq_cons_iff.1 h
    obtain rfl := List.map_eq_nil_iff.1 none
    rfl
  | case3 name names some ih =>
    obtain ⟨⟨_, _⟩, behind, rfl, rfl, tail⟩ := List.map_eq_cons_iff.1 h
    obtain ⟨⟨_, _⟩, rest, rfl, rfl, others⟩ := List.map_eq_cons_iff.1 tail
    show (loopParams rest).map (name :: ·) = _
    rw [ih others]
    rfl

theorem length_nameTokens {names : List String} (h : names ≠ []) : (nameTokens names).length % 2 = 1 := by
  fun_induction nameTokens names with
  | case1 => exact absurd rfl h
  | case2 name => rfl
  | case3 name names some ih =>
    have odd := ih (by rintro rfl; exact some rfl)
    simp only [List.length_cons]
    omega

/-- What is read from the tokens between the brackets, if there are any. -/
theorem parseBinding_names {start : Nat} {text : List Char} {ts inner : List Lexeme} {names : List String}
    (lexed : Grammar.tokens text.length ⟨start, text⟩ = .ok ts) (between : (unbracket ts).getD ts = inner)
    (tokens : inner.map Lexeme.token = nameTokens names) (filled : names ≠ []) :
    parseBinding ⟨start, text⟩ = .ok ⟨names,
      if !(unbracket ts).isSome && names.length == 1 then some implicitIndex else none,
      (unbracket ts).isSome⟩ := by
  have odd : inner.length % 2 = 1 := by
    rw [← List.length_map Lexeme.token, tokens, length_nameTokens filled]
  have there : (names.isEmpty || inner.length % 2 == 0) = false := by
    simp [odd, filled]
  unfold parseBinding Grammar.tokenize
  rw [lexed]
  show (loopParams ((unbracket ts).getD ts) >>= fun params =>
    if params.isEmpty || ((unbracket ts).getD ts).length % 2 == 0 then _ else _) = _
  rw [between, loopParams_names tokens]
  show (if names.isEmpty || inner.length % 2 == 0 then _ else _) = _
  rw [there]
  rfl

/-- The tokens between two brackets. -/
theorem unbracket_tokens {ts : List Lexeme} {o c : Grammar.Token} {inner : List Grammar.Token}
    (pair : (o, c) ∈ [(.openParen, .closeParen), (.openBracket, .closeBracket)])
    (h : ts.map Lexeme.token = o :: (inner ++ [c])) :
    ∃ between, unbracket ts = some between ∧ between.map Lexeme.token = inner := by
  obtain ⟨t, rest, rfl, rfl, tail⟩ := List.map_eq_cons_iff.1 h
  obtain ⟨between, lasts, rfl, inside, last⟩ := List.map_eq_append_iff.1 tail
  obtain ⟨s, none, rfl, rfl, nil⟩ := List.map_eq_cons_iff.1 last
  obtain rfl := List.map_eq_nil_iff.1 nil
  refine ⟨between, ?_, inside⟩
  have final : (t :: (between ++ [s])).getLast? = some s := by
    rw [← List.cons_append, List.getLast?_concat]
  simp only [List.mem_cons, List.not_mem_nil, or_false, Prod.mk.injEq] at pair
  unfold unbracket
  rw [final, List.head?_cons, Option.map_some, Option.map_some]
  rcases pair with ⟨first, second⟩ | ⟨first, second⟩
  · rw [first, second]
    simp
  · rw [first, second]
    simp

namespace Variables

variable {binding : LoopBinding} {text rest : List Char}

theorem trimmed (h : Variables binding text) : Trimmed text ∧ text ≠ [] := by
  cases h with
  | bare h => exact h.trimmed
  | @bracketed names opening closing before text after brackets hb ha h =>
    obtain ⟨o, c, pair⟩ := exists_brackets brackets
    have first : Trimmed [opening] := trimmed_of_word (by simp [(pair.plain opening (by simp)).1])
    have last : Trimmed [closing] := trimmed_of_word (by simp [(pair.plain closing (by simp)).1])
    constructor
    · simpa using first.enclose (by simp) (before ++ (text ++ after)) last (by simp)
    · simp

/-- Loop variables are read as they are written. -/
theorem parseBinding (h : Variables binding text) (start : Nat) :
    Markup.parseBinding ⟨start, text⟩ = .ok binding := by
  cases h with
  | @bare names text h =>
    obtain ⟨found, lexed, tokens⟩ := (h.lexes .nil .done).tokens start _ le_rfl
    obtain ⟨name, others, rfl⟩ := h.cons
    simp only [List.append_nil] at lexed tokens
    -- the first token is a name
    have plain : unbracket found = none := by
      have first : found.head?.map Lexeme.token = some (.ident name) := by
        rw [← List.head?_map, tokens]
        cases others <;> rfl
      unfold unbracket
      rw [first]
    rw [parseBinding_names lexed (by rw [plain]; rfl) tokens (by simp), plain]
    simp
  | @bracketed names opening closing before text after brackets hb ha h =>
    have filled : names ≠ [] := by
      obtain ⟨name, others, rfl⟩ := h.cons
      simp
    obtain ⟨o, c, pair⟩ := exists_brackets brackets
    have closing : Lexes (after ++ [closing]) [c] :=
      lexes_blanks ha (.mark (pair.plain closing (by simp)).1 (pair.closes []) .done)
    have lexes := Lexes.mark (pair.plain opening (by simp)).1 (pair.opens _)
      (lexes_blanks hb (h.lexes (ended_of_blanks ha (pair.ended [])) closing))
    obtain ⟨found, lexed, tokens⟩ := lexes.tokens start _ le_rfl
    obtain ⟨inner, between, tokens⟩ := unbracket_tokens pair.tokens tokens
    rw [parseBinding_names lexed (by rw [between]; rfl) tokens filled, between]
    rfl

/-- The scan for a keyword goes over loop variables that are not called like it. -/
theorem scans {keyword : String} {last : Bool} {i : Nat} {found : Option Nat} (hk : Word keyword.toList)
    (h : Variables binding text) (other : keyword ∉ binding.params)
    (ended : ∀ c ∈ rest.head?, isNamePart c = false)
    (hs : Scans keyword.toList last (i + text.length) 0 rest found) :
    Scans keyword.toList last i 0 (text ++ rest) found := by
  cases h with
  | bare h => exact h.scans hk other ended hs
  | @bracketed names opening closing before text after brackets hb ha h =>
    obtain ⟨o, c, pair⟩ := exists_brackets brackets
    obtain ⟨-, quote, mark⟩ := pair.plain opening (by simp)
    obtain ⟨-, quote', mark'⟩ := pair.plain closing (by simp)
    obtain ⟨deeper, back⟩ := pair.nesting
    simp only [List.cons_append, List.append_assoc, List.nil_append]
    refine .mark hk quote mark (.blanks hk hb (h.scans hk other ?_ ?_))
    · intro d hd
      exact (ended_of_blanks ha (pair.ended rest) d hd).1
    · refine .blanks hk ha (.mark hk quote' mark' ?_)
      rw [deeper, back, show (0 + 1 + -1 : Int) = 0 from rfl]
      convert hs using 1
      simp only [List.length_cons, List.length_append, List.length_nil]
      omega

end Variables

/-! ## Headers -/

theorem word_as : Word "as".toList := word_of_isName (by decide)

theorem word_in : Word "in".toList := word_of_isName (by decide)

/-- A text that is read as an expression has something in it. -/
theorem filled_of_parse {p : Nat} {c : List Char} {e : Expr} (h : Expr.parse ⟨p, c⟩ = .ok e) :
    c ≠ [] := by
  rintro rfl
  cases h

variable {p : Nat} {c b : List Char} {e : Expr} {binding : LoopBinding}

/-- A keyword that no loop variable is called like is found in front of them, behind an expression. -/
theorem splitAtKeyword_last (start : Nat) {keyword : String} (hk : Word keyword.toList)
    (parsed : Expr.parse ⟨p, c⟩ = .ok e) (hb : Variables binding b) (other : keyword ∉ binding.params) :
    splitAtKeyword keyword true ⟨start, c ++ ' ' :: (keyword.toList ++ ' ' :: b)⟩ =
      some (⟨start, c ++ [' ']⟩, ⟨start + byteLength (c ++ ' ' :: keyword.toList), ' ' :: b⟩) := by
  have behind (i : Nat) : Scans keyword.toList true i 0 b none := by
    have none : Scans keyword.toList true i 0 (b ++ []) none := hb.scans hk other (by simp) .nil
    rwa [List.append_nil] at none
  apply splitAtKeyword_eq
  -- the brackets of the expression are paired, so the keyword stands outside of them
  refine .past (Expr.nests_of_parse parsed) ?_
  rw [Nat.zero_add]
  exact .here hk fun _ => .mark hk rfl rfl (behind _)

/-- Behind the loop variables the keyword is found, whatever follows. -/
theorem splitAtKeyword_first (start : Nat) (c : List Char) {keyword : String}
    (hk : Word keyword.toList) (hb : Variables binding b) (other : keyword ∉ binding.params) :
    splitAtKeyword keyword false ⟨start, b ++ ' ' :: (keyword.toList ++ ' ' :: c)⟩ =
      some (⟨start, b ++ [' ']⟩, ⟨start + byteLength (b ++ ' ' :: keyword.toList), ' ' :: c⟩) := by
  apply splitAtKeyword_eq
  -- the first place counts, so the text behind it is not looked at
  refine hb.scans hk other (by simp; decide) ?_
  rw [Nat.zero_add]
  exact .here hk nofun

theorem Directive.parse_each {r rest collection vars : Region} (heads : Heads r "#each" rest)
    (filled : rest.isEmpty = false) (split : splitAtKeyword "as" true rest = some (collection, vars)) :
    Directive.parse r = (parseBinding vars.trim).map (eachOpen collection.trim) := by
  obtain ⟨tail, front⟩ := heads.sigil (c := '#') (by simp; rfl)
  obtain ⟨word, rfl⟩ := heads
  rw [front] at word filled split
  unfold Directive.parse
  simp only [front, ← word, filled, bind, Except.bind, Bool.false_eq_true, if_false, split]
  rcases parseBinding vars.trim with _ | _ <;> rfl

theorem Directive.parse_for {r rest vars collection : Region} (heads : Heads r "#for" rest)
    (filled : rest.isEmpty = false) (split : splitAtKeyword "in" false rest = some (vars, collection))
    (there : collection.trim.isEmpty = false) :
    Directive.parse r = (parseBinding vars.trim).map (forOpen · collection.trim) := by
  obtain ⟨tail, front⟩ := heads.sigil (c := '#') (by simp; rfl)
  obtain ⟨word, rfl⟩ := heads
  rw [front] at word filled split
  unfold Directive.parse
  simp only [front, ← word, filled, bind, Except.bind, Bool.false_eq_true, if_false, split, there]
  rcases parseBinding vars.trim with _ | _ <;> rfl

/-- A directive that is written with one blank between its keyword and the rest. -/
theorem Directive.heads_of_word (start : Nat) {word rest : List Char}
    (hw : ∀ c ∈ word, isBlank c = false) (hn : word ≠ []) (hr : Trimmed rest) (rn : rest ≠ []) :
    Heads ⟨start, word ++ ' ' :: rest⟩ (String.ofList word)
      ⟨start + (byteLength word + 1), rest⟩ := by
  have blank : ∀ c ∈ [' '], isBlank c = true := by simp; rfl
  have heads := heads_of_text start (List.forall_mem_nil _) hw hn blank (by simp) hr rn
    (List.forall_mem_nil _)
  simpa [byteLength_append, byteLength, show ' '.utf8Size = 1 from rfl] using heads

theorem trim_before {cs : List Char} (h : Trimmed cs) (hn : cs ≠ []) (start : Nat) :
    Region.trim ⟨start, cs ++ [' ']⟩ = ⟨start, cs⟩ := by
  have blank : ∀ c ∈ [' '], isBlank c = true := by simp; rfl
  have trim := Region.trim_eq start (List.forall_mem_nil _) blank h hn
  simpa [byteLength] using trim

theorem trim_behind {cs : List Char} (h : Trimmed cs) (hn : cs ≠ []) (start : Nat) :
    Region.trim ⟨start, ' ' :: cs⟩ = ⟨start + 1, cs⟩ := by
  have blank : ∀ c ∈ [' '], isBlank c = true := by simp; rfl
  have trim := Region.trim_eq start blank (List.forall_mem_nil _) h hn
  simpa [byteLength, show ' '.utf8Size = 1 from rfl] using trim

/-- A header is read as the loop that it was put together for: whatever is read as an expression comes
back as the collection, and the loop variables as they are written. -/
theorem Directive.parse_loop (start : Nat) (hc : Trimmed c) (parsed : Expr.parse ⟨p, c⟩ = .ok e)
    (hb : Variables binding b) :
    ("as" ∉ binding.params → Directive.parse ⟨start, "#each ".toList ++ c ++ " as ".toList ++ b⟩ =
      .ok (.eachOpen ⟨start + 6, c⟩ binding)) ∧
    ("in" ∉ binding.params → Directive.parse ⟨start, "#for ".toList ++ b ++ " in ".toList ++ c⟩ =
      .ok (.forOpen binding ⟨start + 5 + byteLength b + 4, c⟩)) := by
  have filled := filled_of_parse parsed
  obtain ⟨trimmed, some⟩ := hb.trimmed
  constructor
  · intro other
    have heads := heads_of_word start (show ∀ c ∈ "#each".toList, _ by simp; decide) (by simp)
      (hc.enclose filled " as ".toList trimmed some) (by simp [filled])
    have split := splitAtKeyword_last (start + (byteLength "#each".toList + 1)) word_as parsed hb other
    have read := parse_each heads (by simp [Region.isEmpty, filled]) split
    rw [trim_before hc filled, trim_behind trimmed some, hb.parseBinding] at read
    rw [List.append_assoc, List.append_assoc]
    exact read
  · intro other
    have heads := heads_of_word start (show ∀ c ∈ "#for".toList, _ by simp; decide) (by simp)
      (trimmed.enclose some " in ".toList hc filled) (by simp [some])
    have split := splitAtKeyword_first (start + (byteLength "#for".toList + 1)) c word_in hb other
    have read := parse_for heads (by simp [Region.isEmpty, some]) split
      (by rw [trim_behind hc filled]; simp [Region.isEmpty, filled])
    rw [trim_before trimmed some, trim_behind hc filled, hb.parseBinding, byteLength_append] at read
    rw [List.append_assoc, List.append_assoc]
    exact read

/-- Both keywords may stand in the expression, as names and in strings. -/
theorem Directive.parse_loop_words :
    Directive.parse ⟨0, "#each ! as && pick(' in ', `$\x7b as \x7d`) as [key, value]".toList⟩ =
      .ok (.eachOpen ⟨6, "! as && pick(' in ', `$\x7b as \x7d`)".toList⟩
        ⟨["key", "value"], none, true⟩) ∧
    Directive.parse ⟨0, "#for [key, value] in ! as && pick(' in ', `$\x7b as \x7d`)".toList⟩ =
      .ok (.forOpen ⟨["key", "value"], none, true⟩
        ⟨21, "! as && pick(' in ', `$\x7b as \x7d`)".toList⟩) := by
  have read : (Expr.parse ⟨0, "! as && pick(' in ', `$\x7b as \x7d`)".toList⟩).toOption.isSome = true :=
    by decide +kernel
  rcases parsed : Expr.parse ⟨0, "! as && pick(' in ', `$\x7b as \x7d`)".toList⟩ with fault | e
  · rw [parsed] at read
    cases read
  have trimmed : Trimmed "! as && pick(' in ', `$\x7b as \x7d`)".toList :=
    trimmed_iff.2 (by decide +kernel)
  have vars : Variables ⟨["key", "value"], none, true⟩ "[key, value]".toList := by
    have names : Listed ["key", "value"] ("key".toList ++ ([] ++ ',' :: ([' '] ++ "value".toList))) :=
      .more (by decide) (by simp) (by simp; rfl) (.one (by decide))
    have brackets : ('[', ']') ∈ [('(', ')'), ('[', ']')] := by simp
    simpa using Variables.bracketed brackets (List.forall_mem_nil _) (List.forall_mem_nil _) names
  obtain ⟨each, loop⟩ := parse_loop 0 trimmed parsed vars
  rw [show byteLength "[key, value]".toList = 12 by decide +kernel] at loop
  constructor
  · simpa using each (by decide)
  · simpa using loop (by decide)

end LiveTemplate.Markup
