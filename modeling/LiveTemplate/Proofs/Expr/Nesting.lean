/-
Brackets in expressions. An expression is formed by as many opening as closing brackets, so in a text
that is read as an expression there are as many of both outside of strings, whatever they are. The same
brackets are counted in the text and in its tokens, since no other token has one in it and the strings
are gone over as a whole.
-/
import LiveTemplate.Proofs.Expr.Lexing
import LiveTemplate.Proofs.Expr.Strings

namespace LiveTemplate

open Text

/-! ## Texts -/

namespace Delimiter

/-- How a character outside of strings changes the depth of brackets. -/
def nesting (c : Char) : Int :=
  if c == '(' || c == '[' || c == '{' then 1
  else if c == ')' || c == ']' || c == '}' then -1
  else 0

/-- Texts outside of strings in which every string is closed, by how much deeper in brackets their ends
are than their fronts. -/
inductive Nests : Int → List Char → Prop
  | nil : Nests 0 []
  | plain {c : Char} {rest : List Char} {n : Int} : isQuote c = false → Nests n rest →
    Nests (nesting c + n) (c :: rest)
  | string {mark : Char} {text rest : List Char} {n : Int} : isQuote mark = true →
    Enclosed (some mark) text → Nests n rest → Nests n (mark :: (text ++ mark :: rest))

namespace Nests

variable {front back : List Char} {n m : Int}

theorem append (hf : Nests n front) (hb : Nests m back) : Nests (n + m) (front ++ back) := by
  induction hf with
  | nil => rwa [Int.zero_add]
  | plain other _ ih =>
    rw [Int.add_assoc]
    exact .plain other ih
  | string quote inside _ ih =>
    rw [List.cons_append, List.append_assoc]
    exact .string quote inside ih

/-- A text without quotes. -/
theorem of_plain (h : ∀ c ∈ front, isQuote c = false) : Nests (front.map nesting).sum front := by
  induction front with
  | nil => exact .nil
  | cons c front ih =>
    obtain ⟨other, others⟩ := List.forall_mem_cons.1 h
    exact .plain other (ih others)

/-- A text without quotes and brackets. -/
theorem of_free (h : ∀ c ∈ front, isQuote c = false ∧ nesting c = 0) : Nests 0 front := by
  have plain := of_plain fun c hc => (h c hc).1
  rwa [List.sum_eq_zero (by simpa using fun c hc => (h c hc).2)] at plain

end Nests

/-- Characters that pass a test which no bracket passes do not change the depth. -/
theorem nesting_of_test {p : Char → Bool} (none : ['(', '[', '{', ')', ']', '}'].any p = false)
    {c : Char} (h : p c = true) : nesting c = 0 := by
  have other (b : Char) (hb : b ∈ ['(', '[', '{', ')', ']', '}']) : (c == b) = false := by
    rw [beq_eq_false_iff_ne]
    exact ne_of_test h (by simpa using List.any_eq_false.1 none b hb)
  simp [nesting, other]

end Delimiter

namespace Grammar

open Delimiter

/-! ## Tokens -/

/-- How a token changes the depth of brackets. -/
def Token.nesting : Token → Int
  | openParen | openBracket | openBrace => 1
  | closeParen | closeBracket | closeBrace => -1
  | _ => 0

/-- How tokens change the depth of brackets. -/
def nesting (ts : List Lexeme) : Int :=
  (ts.map fun t => t.token.nesting).sum

@[simp] theorem nesting_nil : nesting [] = 0 := rfl

@[simp] theorem nesting_cons (t : Lexeme) (ts : List Lexeme) :
    nesting (t :: ts) = t.token.nesting + nesting ts := by
  simp [nesting]

theorem Token.symbol_nests (t : Token) : Nests t.nesting t.symbol := by
  have plain := Nests.of_plain t.symbol_plain
  rwa [show (t.symbol.map Delimiter.nesting).sum = t.nesting by cases t <;> rfl] at plain

/-- A string has no brackets outside of it. -/
theorem nests_of_closeQuote {start : Nat} {q : Char} {rest inside after : List Char}
    (quote : isQuote q = true) (closed : closeQuote start q rest = .ok (inside, after)) :
    Nests 0 (q :: inside) := by
  cases closing_of_close closed (List.forall_mem_singleton.2 quote) with
  | quote text outer =>
    cases outer
    exact .string quote text .nil

/-- The token at a character stands for a part of the text with the same brackets. -/
theorem token_nests {start stop n : Nat} {c : Char} {rest : List Char} {t : Token}
    (h : token start stop c rest = .ok (t, n)) :
    ∃ front after, c :: rest = front ++ after ∧ n = front.length ∧ Nests t.nesting front := by
  cases begins_of_token h with
  | symbol found =>
    obtain ⟨-, after, whole, length⟩ := symbol?_split found
    exact ⟨t.symbol, after, whole, length, t.symbol_nests⟩
  | string quote closed =>
    exact ⟨_, _, congrArg (c :: ·) (eq_of_close closed), rfl, nests_of_closeQuote quote closed⟩
  | template quote closed =>
    exact ⟨_, _, congrArg (c :: ·) (eq_of_close closed), rfl, nests_of_closeQuote quote closed⟩
  | number first =>
    obtain ⟨after, whole, parts⟩ := numeralTail_split '\x00' rest
    refine ⟨_, after, congrArg (c :: ·) whole, rfl, .of_free (List.forall_mem_cons.2 ⟨?_, ?_⟩)⟩
    · have start (d : Char) (hd : (d == '.' || isAsciiDigit d) = true) : isNumeralPart d = true := by
        unfold isNumeralPart
        grind
      exact ⟨isQuote_of_test rfl rfl rfl (start c first), nesting_of_test rfl (start c first)⟩
    · exact fun d hd => ⟨isQuote_of_test rfl rfl rfl (parts d hd), nesting_of_test rfl (parts d hd)⟩
  | ident first =>
    refine ⟨c :: rest.takeWhile isNamePart, rest.dropWhile isNamePart, by simp, rfl, .of_free ?_⟩
    have parts : ∀ d ∈ c :: rest.takeWhile isNamePart, isNamePart d = true :=
      List.forall_mem_cons.2 ⟨isNamePart_of_start first, fun d hd => List.mem_takeWhile_imp hd⟩
    exact fun d hd => ⟨isQuote_of_test rfl rfl rfl (parts d hd), nesting_of_test rfl (parts d hd)⟩

/-- The tokens of a region have the brackets that its text has. -/
theorem tokens_nest : ∀ {fuel : Nat} {r : Region} {ts : List Lexeme}, r.text.length ≤ fuel →
    tokens fuel r = .ok ts → Nests (nesting ts) r.text
  | 0, r, ts, hf, h => by
    cases h
    rw [List.length_eq_zero_iff.1 (Nat.le_zero.1 hf)]
    exact .nil
  | fuel + 1, r, ts, hf, h => by
    have blanks : Nests 0 (r.text.takeWhile isBlank) := .of_free fun c hc =>
      have blank := List.mem_takeWhile_imp hc
      ⟨isQuote_of_blank blank, nesting_of_test rfl blank⟩
    have whole := List.takeWhile_append_dropWhile (p := isBlank) (l := r.text)
    have fewer := List.length_dropWhile_le isBlank r.text
    rw [tokens] at h
    rw [← Region.dropWhile_text] at whole fewer
    rw [← whole, ← Int.zero_add (nesting ts)]
    refine blanks.append ?_
    generalize r.dropWhile isBlank = here at h fewer ⊢
    obtain ⟨start, text⟩ := here
    cases text with
    | nil =>
      cases h
      exact .nil
    | cons c rest =>
      obtain ⟨⟨t, n⟩, first, h⟩ := results_of_bind h
      obtain ⟨others, behind, h⟩ := results_of_bind h
      cases h
      obtain ⟨front, after, text, rfl, nests⟩ := token_nests first
      have some := token_weight first
      have weight := t.weight_pos
      simp only [text, Region.drop, List.drop_left] at behind fewer ⊢
      rw [List.length_append] at fewer
      exact nests.append (tokens_nest (by dsimp only; omega) behind)

/-! ## The grammar -/

theorem paramsTail_nesting {ts rest : List Lexeme} {params : List String}
    (h : Parser.paramsTail ts = some (params, rest)) : nesting ts = nesting rest - 1 := by
  fun_induction Parser.paramsTail ts generalizing params rest with
  | case1 name _ _ more ih =>
    obtain ⟨⟨names, after⟩, hn, hp⟩ := Option.map_eq_some_iff.1 h
    cases hp
    simp [Token.nesting, ih hn]
  | case2 name =>
    cases h
    simp [Token.nesting]
    omega
  | case3 => cases h

theorem arrowParams_nesting {ts rest : List Lexeme} {params : List String}
    (h : Parser.arrowParams ts = some (params, rest)) : nesting ts = nesting rest := by
  unfold Parser.arrowParams at h
  split at h
  · cases h
    simp [Token.nesting]
  · cases h
    simp [Token.nesting]
  · simp [Token.nesting, paramsTail_nesting h]
  · cases h

theorem entryKey_nesting {t : Lexeme} {key : String} (h : entryKey t = .ok key) : t.token.nesting = 0 := by
  unfold entryKey at h
  split at h
  case h_1 found => rw [found]; rfl
  case h_2 found => rw [found]; rfl
  case h_3 found => rw [found]; rfl
  case h_4 => cases h

/-- No operator is a bracket. -/
theorem binaryOp_nesting {t : Token} {op : BinaryOp} (h : binaryOp? t = some op) : t.nesting = 0 := by
  cases t <;> first | rfl | cases h

theorem unaryOp_nesting {t : Token} {op : UnaryOp} (h : unaryOp? t = some op) : t.nesting = 0 := by
  cases t <;> first | rfl | cases h

theorem Marked.nesting_eq {optional : Bool} {ts rest : List Lexeme} (h : Marked optional ts rest) :
    nesting ts = nesting rest := by
  cases h with
  | plain => rfl
  | optional hq => simp [hq, Token.nesting]

mutual

/-- An expression has as many opening as closing brackets. -/
theorem Forms.nesting_eq : ∀ {ts : List Lexeme} {e : Expr} {rest : List Lexeme}, Forms ts e rest →
    nesting ts = nesting rest
  | _, _, _, .number ht _ | _, _, _, .string ht _ | _, _, _, .template ht _ | _, _, _, .word ht _ => by
    simp [ht, Token.nesting]
  | _, _, _, .parentheses ho he hc => by
    simp [ho, hc, he.nesting_eq, Token.nesting]
  | _, _, _, .array ho hi => by simp [ho, hi.nesting_eq, Token.nesting]
  | _, _, _, .object ho he => by simp [ho, he.nesting_eq, Token.nesting]
  | _, _, _, .member optional ho hd => by
    rw [ho.nesting_eq]
    cases optional <;> simp [hd, Token.nesting]
  | _, _, _, .index ho marked hb hi hc => by
    rw [ho.nesting_eq, marked.nesting_eq]
    simp [hb, hi.nesting_eq, hc, Token.nesting]
  | _, _, _, .call hc marked hb ha => by
    rw [hc.nesting_eq, marked.nesting_eq]
    simp [hb, ha.nesting_eq, Token.nesting]
  | _, _, _, .cut he marked => he.nesting_eq.trans marked.nesting_eq
  | _, _, _, .unary hop he => by simp [unaryOp_nesting hop, he.nesting_eq]
  | _, _, _, .binary hl hop hr => by simp [hl.nesting_eq, binaryOp_nesting hop, hr.nesting_eq]
  | _, _, _, .conditional ht hq hy hc hn => by
    simp [ht.nesting_eq, hq, hy.nesting_eq, hc, hn.nesting_eq, Token.nesting]
  | _, _, _, .arrow hp hb => (arrowParams_nesting hp).trans hb.nesting_eq

/-- But for the bracket that a list ends with. -/
theorem FormsList.nesting_eq : ∀ {closing : Token} {ts : List Lexeme} {es : List Expr} {s : Span}
    {rest : List Lexeme}, FormsList closing ts es s rest → nesting ts = closing.nesting + nesting rest
  | _, _, _, _, _, .nil => nesting_cons _ _
  | _, _, _, _, _, .last he => he.nesting_eq.trans (nesting_cons _ _)
  | _, _, _, _, _, .cons he hk ho => by
    rw [he.nesting_eq, nesting_cons, hk, ho.nesting_eq]
    exact Int.zero_add _

theorem FormsEntry.nesting_eq : ∀ {ts : List Lexeme} {key : String} {value : Expr} {rest : List Lexeme},
    FormsEntry ts key value rest → nesting ts = nesting rest
  | _, _, _, _, .pair hkey hk hv => by
    rw [nesting_cons, entryKey_nesting hkey]
    simp [hk, hv.nesting_eq, Token.nesting]
  | _, _, _, _, .short ht => by simp [ht, Token.nesting]

theorem FormsEntries.nesting_eq : ∀ {ts : List Lexeme} {entries : List (String × Expr)} {s : Span}
    {rest : List Lexeme}, FormsEntries ts entries s rest → nesting ts = -1 + nesting rest
  | _, _, _, _, .nil hc => by simp [hc, Token.nesting]
  | _, _, _, _, .last he hc => by simp [he.nesting_eq, hc, Token.nesting]
  | _, _, _, _, .cons he hk ho => by simp [he.nesting_eq, hk, ho.nesting_eq, Token.nesting]

end

end Grammar

/-- In a text that is read as an expression every string is closed and every bracket has its partner. -/
theorem Expr.nests_of_parse {r : Region} {e : Expr} (h : Expr.parse r = .ok e) :
    Delimiter.Nests 0 r.text := by
  obtain ⟨ts, cut, forms⟩ := Expr.forms_of_parse h
  have nests := Grammar.tokens_nest le_rfl cut
  rwa [forms.nesting_eq] at nests

end LiveTemplate
