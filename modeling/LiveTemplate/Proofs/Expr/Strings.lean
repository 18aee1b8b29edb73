/-
Strings in expressions. In a text whose strings are closed the lexer takes string by string, so behind
each token the strings are closed again, and between the marks of a template string stands a text of
the grammar of delimiters. Reading that text keeps in step with the grammar, escapes included: it comes
to the braces that open an interpolation there and to no others. What an interpolation holds has its
strings closed, so the same is true of it.
-/
import LiveTemplate.Proofs.Delimiter.Strung
import LiveTemplate.Proofs.Expr.Interpolations
import LiveTemplate.Proofs.Location.Expressions

namespace LiveTemplate.Grammar

open Text Delimiter Relation

/-! ## One token -/

theorem Token.symbol_plain (t : Token) : ∀ c ∈ t.symbol, isQuote c = false := by
  cases t <;> simp [symbol, isQuote]

/-- The characters that may go on a numeral. -/
def isNumeralPart (c : Char) : Bool :=
  isAsciiLetter c || isAsciiDigit c || c == '.' || c == '_' || c == '+' || c == '-'

theorem numeralTail_split (prev : Char) (cs : List Char) : ∃ after, cs = numeralTail prev cs ++ after ∧
    ∀ c ∈ numeralTail prev cs, isNumeralPart c = true := by
  fun_induction numeralTail prev cs with
  | case1 => exact ⟨[], rfl, by simp⟩
  | case2 prev c rest goes ih =>
    obtain ⟨after, whole, parts⟩ := ih
    refine ⟨after, congrArg (c :: ·) whole, List.forall_mem_cons.2 ⟨?_, parts⟩⟩
    unfold isNumeralPart
    grind
  | case3 prev c rest => exact ⟨c :: rest, rfl, by simp⟩

/-- The token at a character leaves the strings behind it closed, and a template string is one of the
grammar of delimiters. No string is undelimited. -/
theorem token_strung {c : Char} {rest : List Char} (h : Strung (c :: rest)) (start stop : Nat) :
    Accounts False (fun found => Strung ((c :: rest).drop found.2) ∧
      ∀ body, found.1 = .template body → Enclosed (some '\x60') body) (token start stop c rest) := by
  -- a token of plain characters is no template string
  have plain {front after : List Char} (whole : c :: rest = front ++ after)
      (plain : ∀ d ∈ front, isQuote d = false) : Strung ((c :: rest).drop front.length) := by
    rw [whole] at h ⊢
    rw [List.drop_left]
    exact h.behind plain
  unfold token
  split
  case h_1 found hs =>
    obtain ⟨-, after, whole, length⟩ := symbol?_split hs
    refine ⟨?_, fun body hb => ?_⟩
    · rw [length]
      exact plain whole found.1.symbol_plain
    · have none := symbol?_body hs
      rw [hb] at none
      cases none
  case h_2 =>
    by_cases quote : isQuote c = true
    · obtain ⟨text, after, rfl, inside, others, closes⟩ := h.closeQuote quote
      rw [if_pos quote, closes]
      dsimp only
      refine ⟨?_, fun body hb => ?_⟩
      · simpa using others
      · dsimp only at hb
        split at hb
        case isTrue template =>
          obtain rfl := beq_iff_eq.1 template
          cases hb
          simpa using inside
        case isFalse => cases hb
    · have other : isQuote c = false := by simpa using quote
      rw [if_neg quote]
      split
      · obtain ⟨after, whole, parts⟩ := numeralTail_split '\x00' rest
        have free : ∀ d ∈ numeralTail '\x00' rest, isQuote d = false := fun d hd =>
          isQuote_of_test rfl rfl rfl (parts d hd)
        exact ⟨plain (congrArg (c :: ·) whole) (List.forall_mem_cons.2 ⟨other, free⟩),
          fun body hb => nomatch hb⟩
      · split
        · have whole : c :: rest = c :: rest.takeWhile isNamePart ++ rest.dropWhile isNamePart := by simp
          have free : ∀ d ∈ rest.takeWhile isNamePart, isQuote d = false := fun d hd =>
            isQuote_of_test rfl rfl rfl (List.mem_takeWhile_imp hd)
          exact ⟨plain whole (List.forall_mem_cons.2 ⟨other, free⟩), fun body hb => nomatch hb⟩
        · exact fun h => nomatch h

/-! ## All tokens -/

variable {r : Region}

/-- The first token of a region whose strings are closed, and what stands behind it. -/
theorem first_strung {c : Char} {rest : List Char} {t : Token} {n : Nat} (h : Strung r.text)
    (text : (r.dropWhile isBlank).text = c :: rest)
    (first : token (r.dropWhile isBlank).start (r.dropWhile isBlank).stop c rest = .ok (t, n)) :
    Strung ((r.dropWhile isBlank).drop n).text ∧
      ∀ body, t = .template body → Enclosed (some '\x60') body := by
  have skipped := h.dropBlanks
  rw [text] at skipped
  have found := token_strung skipped (r.dropWhile isBlank).start (r.dropWhile isBlank).stop
  rw [first] at found
  show Strung ((r.dropWhile isBlank).text.drop n) ∧ _
  rw [text]
  exact found

theorem tokens_strung : ∀ (fuel : Nat) {r : Region}, Strung r.text →
    Accounts False (fun _ => True) (tokens fuel r)
  | 0, _, _ => trivial
  | fuel + 1, r, h => by
    rw [tokens]
    dsimp only
    split
    · trivial
    · rename_i c rest text
      have skipped := h.dropBlanks
      rw [text] at skipped
      refine (token_strung skipped _ _).bind fun found hf => ?_
      have behind : Strung ((r.dropWhile isBlank).drop found.2).text := by
        show Strung ((r.dropWhile isBlank).text.drop found.2)
        rw [text]
        exact hf.1
      exact (tokens_strung fuel behind).bind fun _ _ => trivial

/-- A template string that lexing comes to. -/
theorem Meets.enclosed {l : Lexeme} (h : Meets r l) (hs : Strung r.text) {body : List Char}
    (hb : l.token = .template body) : Enclosed (some '\x60') body := by
  induction h with
  | here text first => exact (first_strung hs text first).2 body hb
  | later text first _ ih => exact ih (first_strung hs text first).1 hb

/-! ## Template strings -/

theorem digitValue_of_natOfDigits {base n : Nat} {digits : List Char}
    (h : Decimal.natOfDigits base digits = some n) :
    ∀ c ∈ digits, (Decimal.digitValue c).isSome = true := by
  unfold Decimal.natOfDigits at h
  split at h
  · cases h
  · generalize 0 = start at h
    induction digits generalizing start with
    | nil => simp
    | cons d digits ih =>
      rw [List.foldlM_cons] at h
      obtain ⟨next, hn, h⟩ := Option.bind_eq_some_iff.1 h
      obtain ⟨value, hd, -⟩ := Option.bind_eq_some_iff.1 hn
      refine List.forall_mem_cons.2 ⟨by rw [hd]; rfl, ?_⟩
      cases digits with
      | nil => simp
      | cons e digits => exact ih (by simp) next h

/-- The digits of a code are no characters that mean something in a string. -/
theorem codeChar?_plain {digits : List Char} {c : Char} (h : codeChar? digits = some c) :
    ∀ d ∈ digits, d ≠ '\\' ∧ d ≠ '$' := by
  have ofDigit {d : Char} (hd : (Decimal.digitValue d).isSome = true) : d ≠ '\\' ∧ d ≠ '$' :=
    ⟨ne_of_test (p := fun d => (Decimal.digitValue d).isSome) hd rfl,
      ne_of_test (p := fun d => (Decimal.digitValue d).isSome) hd rfl⟩
  unfold codeChar? at h
  obtain ⟨n, hn, -⟩ := Option.bind_eq_some_iff.1 h
  intro d hd
  split at hn
  case h_1 rest =>
    rcases List.mem_cons.1 hd with rfl | hd
    · decide
    · exact ofDigit (digitValue_of_natOfDigits hn d hd)
  case h_2 => exact ofDigit (digitValue_of_natOfDigits hn d hd)

/-- An escape takes what the backslash guards, and the digits of a code behind it. -/
theorem escape_enclosed {pos : Nat} {c : Char} {rest after : List Char}
    (he : escape pos rest = .ok (c, after)) (h : Enclosed (some '\x60') ('\\' :: rest)) :
    Enclosed (some '\x60') after := by
  obtain ⟨d, others, rfl, behind⟩ := h.guarded_tail
  unfold escape at he
  dsimp only at he
  by_cases code : (d == 'u') = true
  · obtain rfl := beq_iff_eq.1 code
    -- the four digits of a code stand behind the guarded character
    rw [if_neg (by decide), if_neg (by decide), if_neg (by decide), if_neg (by decide),
      if_neg (by decide), if_pos code] at he
    split at he
    case h_1 =>
      split at he
      case h_1 code hc =>
        cases he
        exact Enclosed.behind (show Enclosed _ ([_, _, _, _] ++ _) from behind) (codeChar?_plain hc)
      case h_2 => cases he
    case h_2 => cases he
  · rw [if_neg code] at he
    repeat' split at he
    all_goals
      cases he
      try exact behind

/-- Reading a template string keeps in step with the grammar. -/
theorem Scans.enclosed {pos p : Nat} {cs rest : List Char} (h : Scans pos cs p rest)
    (hc : Enclosed (some '\x60') cs) : Enclosed (some '\x60') rest := by
  induction h with
  | start => exact hc
  | @hole p rest inside after _ closed ih =>
    obtain ⟨inner, others, rfl, enclosed, behind⟩ := ih.opens
    rw [(closeBrace_eq_iff _ _ _).2 enclosed] at closed
    cases closed
    exact behind
  | escape _ he ih => exact escape_enclosed he ih
  | char _ guard dollar ih => exact ih.tail guard dollar

/-! ## Interpolations -/

/-- Where an interpolation opens, what it holds is enclosed, and the brace behind that closes it. -/
theorem OpensAt.enclosed {pos : Nat} {rest : List Char} (h : OpensAt r pos rest)
    (hs : Strung r.text) : ∃ inside after, rest = inside ++ '}' :: after ∧ Enclosed none inside := by
  obtain ⟨body, span, met, scanned⟩ := h
  obtain ⟨inside, after, whole, enclosed, -⟩ := (scanned.enclosed (met.enclosed hs rfl)).opens
  exact ⟨inside, after, whole, enclosed⟩

theorem Interpolation.strung {i : Region} (h : Interpolation r i) (hs : Strung r.text) :
    Strung i.text := by
  obtain ⟨opens, closed⟩ := h
  obtain ⟨inside, after, rfl, enclosed⟩ := opens.enclosed hs
  rw [(closeBrace_eq_iff _ _ _).2 enclosed] at closed
  cases closed
  simpa using enclosed.strung

theorem delimited_of_strung (h : Strung r.text) : Delimited r where
  strings := (tokens_strung _ h).never _
  interpolations opens := by
    obtain ⟨inside, after, rfl, enclosed⟩ := opens.enclosed h
    refine ⟨inside ++ ['}'], after, fun more => ?_⟩
    rw [List.append_assoc, List.cons_append]
    exact (closeBrace_eq_iff _ _ _).2 enclosed

/-- Where the strings of a region are closed, they are in every region that it leads to. -/
theorem delimited_of_reached {i : Region} (hs : Strung r.text)
    (h : ReflTransGen Interpolation r i) : Delimited i := by
  have strung : Strung i.text := by
    induction h with
    | refl => exact hs
    | tail _ step ih => exact step.strung ih
  exact delimited_of_strung strung

theorem parse_strung (h : Strung r.text) : Accounts False (fun _ => True) (Expr.parse r) :=
  (Expr.parse_accounts r).mono fun ⟨_, reached, bad⟩ => bad (delimited_of_reached h reached)

end LiveTemplate.Grammar
