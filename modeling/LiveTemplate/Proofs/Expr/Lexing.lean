/-
How printed expressions are cut into tokens. The tokens of an expression are a list in their own
right, beside its text, and the text in front of something that cannot be taken for a part of it is
cut into exactly these tokens.
-/
import LiveTemplate.Proofs.Expr.Written

namespace LiveTemplate

open Text Grammar Delimiter

namespace Grammar

/-! ## Operators and brackets -/

/-- The characters of an operator or a bracket. -/
def Token.symbol : Token → List Char
  | .ident _ | .number _ | .string _ | .template _ => []
  | openParen => ['(']
  | closeParen => [')']
  | openBracket => ['[']
  | closeBracket => [']']
  | openBrace => ['{']
  | closeBrace => ['}']
  | comma => [',']
  | colon => [':']
  | dot => ['.']
  | questionDot => ['?', '.']
  | question => ['?']
  | nullish => ['?', '?']
  | arrow => ['=', '>']
  | bang => ['!']
  | plus => ['+']
  | minus => ['-']
  | star => ['*']
  | slash => ['/']
  | percent => ['%']
  | lt => ['<']
  | gt => ['>']
  | le => ['<', '=']
  | ge => ['>', '=']
  | eqEq => ['=', '=']
  | notEq => ['!', '=']
  | eqEqEq => ['=', '=', '=']
  | notEqEq => ['!', '=', '=']
  | andAnd => ['&', '&']
  | orOr => ['|', '|']

/-- What is read as an operator or a bracket is its characters, at the front of the text. -/
theorem symbol?_split {cs : List Char} {t : Token} {n : Nat} (h : symbol? cs = some (t, n)) :
    t.symbol ≠ [] ∧ ∃ after, cs = t.symbol ++ after ∧ n = t.symbol.length := by
  have front {t' : Token} {n' : Nat} (eq : some (t', n') = some (t, n)) {after : List Char}
      (some : t'.symbol ≠ []) (whole : cs = t'.symbol ++ after) (length : n' = t'.symbol.length) :
      t.symbol ≠ [] ∧ ∃ after, cs = t.symbol ++ after ∧ n = t.symbol.length := by
    cases eq
    exact ⟨some, after, whole, length⟩
  unfold symbol? at h
  split at h
  case h_11 => split at h <;> exact front h (List.cons_ne_nil _ _) rfl rfl
  case h_29 =>
    split at h
    · cases h
    · exact front h (List.cons_ne_nil _ _) rfl rfl
  case h_30 => cases h
  all_goals exact front h (List.cons_ne_nil _ _) rfl rfl

/-- A text begins with a token of some length. -/
inductive Begins (start : Nat) (c : Char) (rest : List Char) : Token → Nat → Prop
  | symbol {t : Token} {n : Nat} (found : symbol? (c :: rest) = some (t, n)) : Begins start c rest t n
  | string {inside after : List Char} (quote : Delimiter.isQuote c = true)
      (closed : Delimiter.closeQuote start c rest = .ok (inside, after)) :
      Begins start c rest (.string inside.dropLast) (inside.length + 1)
  | template {inside after : List Char} (quote : Delimiter.isQuote c = true)
      (closed : Delimiter.closeQuote start c rest = .ok (inside, after)) :
      Begins start c rest (.template inside.dropLast) (inside.length + 1)
  | number (first : (c == '.' || isAsciiDigit c) = true) :
      Begins start c rest (.number (c :: numeralTail '\x00' rest)) (c :: numeralTail '\x00' rest).length
  | ident (first : isNameStart c = true) :
      Begins start c rest (.ident (String.ofList (c :: rest.takeWhile isNamePart)))
        (c :: rest.takeWhile isNamePart).length

theorem begins_of_token {start stop : Nat} {c : Char} {rest : List Char} {t : Token} {n : Nat}
    (h : token start stop c rest = .ok (t, n)) : Begins start c rest t n := by
  unfold token at h
  split at h
  case h_1 found hs =>
    cases h
    exact .symbol hs
  split at h
  case isTrue quote =>
    split at h
    case h_1 inside after closed =>
      cases h
      split
      · exact .template quote closed
      · exact .string quote closed
    case h_2 => cases h
  split at h
  case isTrue first =>
    cases h
    exact .number first
  split at h
  case isTrue first =>
    cases h
    exact .ident first
  case isFalse => cases h

/-! ## Cutting a text -/

/-- A text is cut into tokens, wherever it stands. -/
inductive Lexes : List Char → List Token → Prop
  | done : Lexes [] []
  | blank {c : Char} {rest : List Char} {ts : List Token} (hc : isBlank c = true)
      (h : Lexes rest ts) : Lexes (c :: rest) ts
  | token {c : Char} {text rest : List Char} {t : Token} {ts : List Token} (hc : isBlank c = false)
      (ht : ∀ start stop, token start stop c (text ++ rest) = .ok (t, text.length + 1))
      (h : Lexes rest ts) : Lexes (c :: (text ++ rest)) (t :: ts)

/-- How much of a text a token stands for at least; the text of a template string is read again. -/
def Token.weight : Token → Nat
  | .template body => body.length + 1
  | _ => 1

/-- The weight of several tokens. -/
def weight (ts : List Token) : Nat := (ts.map Token.weight).sum

@[simp] theorem weight_nil : weight [] = 0 := rfl

@[simp] theorem weight_cons (t : Token) (ts : List Token) : weight (t :: ts) = t.weight + weight ts := by
  simp [weight]

@[simp] theorem weight_append (ts us : List Token) : weight (ts ++ us) = weight ts + weight us := by
  simp [weight]

theorem Token.weight_pos (t : Token) : 1 ≤ t.weight := by
  unfold weight
  split <;> omega

theorem symbol?_weight {text : List Char} {t : Token} {n : Nat} (h : symbol? text = some (t, n)) :
    t.weight ≤ n := by
  obtain ⟨some, _, -, rfl⟩ := symbol?_split h
  cases t <;> first | exact absurd rfl some | decide

theorem token_weight {start stop : Nat} {c : Char} {rest : List Char} {t : Token} {n : Nat}
    (h : token start stop c rest = .ok (t, n)) : t.weight ≤ n := by
  cases begins_of_token h with
  | symbol found => exact symbol?_weight found
  | string => simp [Token.weight]
  | template => simp [Token.weight]
  | number => simp [Token.weight]
  | ident => simp [Token.weight]

theorem Lexes.weight_le {text : List Char} {ts : List Token} (h : Lexes text ts) :
    weight ts ≤ text.length := by
  induction h with
  | done => simp
  | blank _ _ ih => simpa using Nat.le_succ_of_le ih
  | @token c text rest t ts _ ht _ ih =>
    have := token_weight (ht 0 0)
    rw [weight_cons, List.length_cons, List.length_append]
    omega

theorem tokens_blank {c : Char} (hc : isBlank c = true) (fuel start : Nat) (rest : List Char) :
    tokens (fuel + 1) ⟨start, c :: rest⟩ = tokens (fuel + 1) ⟨start + c.utf8Size, rest⟩ := by
  have same : (Region.mk start (c :: rest)).dropWhile isBlank =
      (Region.mk (start + c.utf8Size) rest).dropWhile isBlank := by
    simp [Region.dropWhile, Region.drop, hc, byteLength, Nat.add_assoc]
  rw [tokens, tokens, same]

/-- The tokens of a text that is cut into some. -/
theorem Lexes.tokens {text : List Char} {ts : List Token} (h : Lexes text ts) :
    ∀ (start fuel : Nat), text.length ≤ fuel →
      ∃ found, tokens fuel ⟨start, text⟩ = .ok found ∧ found.map Lexeme.token = ts := by
  induction h with
  | done =>
    intro start fuel _
    refine ⟨[], ?_, rfl⟩
    cases fuel <;> rfl
  | @blank c rest ts hc h ih =>
    intro start fuel hf
    obtain ⟨fuel, rfl⟩ : ∃ n, fuel = n + 1 := ⟨fuel - 1, by simp at hf; omega⟩
    rw [tokens_blank hc]
    exact ih _ _ (by simp at hf; omega)
  | @token c text rest t ts hc ht h ih =>
    intro start fuel hf
    simp only [List.length_cons, List.length_append] at hf
    obtain ⟨fuel, rfl⟩ : ∃ n, fuel = n + 1 := ⟨fuel - 1, by omega⟩
    have first : (Region.mk start (c :: (text ++ rest))).dropWhile isBlank =
        ⟨start, c :: (text ++ rest)⟩ := by
      simp [Region.dropWhile, Region.drop, hc, byteLength]
    have after : (Region.mk start (c :: (text ++ rest))).drop (text.length + 1) =
        ⟨start + byteLength (c :: text), rest⟩ := by
      simp [Region.drop]
    obtain ⟨found, hfound, rfl⟩ := ih (start + byteLength (c :: text)) fuel (by omega)
    refine ⟨⟨t, ((Region.mk start (c :: (text ++ rest))).take (text.length + 1)).span⟩ :: found, ?_, rfl⟩
    rw [Grammar.tokens]
    simp only [first, ht]
    show (Grammar.tokens fuel (Region.drop (text.length + 1) _)).bind _ = _
    rw [after, hfound]
    rfl

/-! ## Single tokens -/

/-- The characters that operators and brackets begin with. -/
def symbolChars : List Char :=
  ['=', '!', '<', '>', '&', '|', '?', '(', ')', '[', ']', '{', '}', ',', ':', '+', '-', '*', '/',
    '%', '.']

theorem Token.head_symbol {t : Token} {c : Char} (h : t.symbol.head? = some c) : c ∈ symbolChars := by
  cases t <;> cases h <;> decide

theorem symbol?_eq_none {c : Char} (h : c ∉ symbolChars) (rest : List Char) :
    symbol? (c :: rest) = none := by
  cases hs : symbol? (c :: rest) with
  | none => rfl
  | some found =>
    obtain ⟨some, after, whole, -⟩ := symbol?_split hs
    refine absurd (Token.head_symbol (t := found.1) ?_) h
    obtain ⟨d, others, front⟩ := List.exists_cons_of_ne_nil some
    rw [front] at whole ⊢
    rw [(List.cons.inj whole).1]
    rfl

theorem not_symbol_of_nameStart {c : Char} (h : isNameStart c = true) :
    c ∉ symbolChars ∧ isQuote c = false := by
  have none := List.all_eq_true.1 (show symbolChars.all (!isNameStart ·) = true by decide)
  have other (d : Char) (hd : isNameStart d = false) : c ≠ d := ne_of_test h hd
  refine ⟨fun hc => ?_, ?_⟩
  · exact absurd (none c hc) (by simp [h])
  · simp [isQuote, other '"' rfl, other '\'' rfl, other '\x60' rfl]

theorem not_symbol_of_digit {c : Char} (h : isAsciiDigit c = true) :
    c ∉ symbolChars ∧ isQuote c = false := by
  have none := List.all_eq_true.1 (show symbolChars.all (!isAsciiDigit ·) = true by decide)
  have other (d : Char) (hd : isAsciiDigit d = false) : c ≠ d := ne_of_test h hd
  refine ⟨fun hc => ?_, ?_⟩
  · exact absurd (none c hc) (by simp [h])
  · simp [isQuote, other '"' rfl, other '\'' rfl, other '\x60' rfl]

/-- No character lies in two sets when each range of the one is apart from each of the other. -/
theorem Ranges.not_has_of_apart {ranges others : Ranges} {c : Char}
    (apart : ranges.all (fun r => others.all fun o => decide (r.2 < o.1 ∨ o.2 < r.1)) = true)
    (h : ranges.has c = true) : others.has c = false := by
  by_contra both
  obtain ⟨o, ho, inside⟩ := List.any_eq_true.1 (Bool.not_eq_false _ ▸ both)
  obtain ⟨r, hr, within⟩ := List.any_eq_true.1 h
  have disjoint := List.all_eq_true.1 (List.all_eq_true.1 apart r hr) o ho
  simp only [Bool.and_eq_true, decide_eq_true_eq] at inside within disjoint
  omega

theorem not_namePart_of_blank {c : Char} (h : isBlank c = true) : isNamePart c = false := by
  by_cases small : c.toNat < 0x80
  · have code : c.toNat ∈ List.range' 0x9 5 ++ [0x20] := by
      simp only [isBlank, Ranges.has, blankRanges, List.any_cons, List.any_nil, Bool.or_eq_true,
        Bool.and_eq_true, decide_eq_true_eq, Bool.or_false] at h
      simp only [List.mem_append, List.mem_range'_1, List.mem_singleton]
      omega
    have none : ∀ n ∈ List.range' 0x9 5 ++ [0x20], isNamePart (Char.ofNat n) = false := by decide
    simpa using none c.toNat code
  · have dollar : c ≠ '$' := by
      rintro rfl
      cases h
    have first : identifierStartRanges.has c = false :=
      Ranges.not_has_of_apart (by decide +kernel) h
    have extra : identifierExtraRanges.has c = false :=
      Ranges.not_has_of_apart (by decide +kernel) h
    simp [isNamePart, isIdentifierContinue, dollar, small, first, extra]

theorem not_blank_of_namePart {c : Char} (h : isNamePart c = true) : isBlank c = false := by
  by_contra hb
  rw [not_namePart_of_blank (by simpa using hb)] at h
  cases h

/-- What follows a name or a number does not go on with it. -/
def Ended (rest : List Char) : Prop :=
  ∀ c ∈ rest.head?, isNamePart c = false ∧ c ≠ '+' ∧ c ≠ '-'

theorem Ended.nil : Ended [] := by simp [Ended]

theorem Ended.cons {c : Char} (rest : List Char)
    (h : c ∈ [' ', ')', ']', '}', '[', '(', ',', ':', '?', '.']) : Ended (c :: rest) := by
  have all := List.all_eq_true.1 (show [' ', ')', ']', '}', '[', '(', ',', ':', '?', '.'].all
    (fun c => !isNamePart c && c != '+' && c != '-') = true by decide)
  simpa [Ended, and_assoc] using all c h

theorem takeWhile_name {text rest : List Char} (ht : ∀ c ∈ text, isNamePart c = true)
    (hr : Ended rest) : (text ++ rest).takeWhile isNamePart = text := by
  rw [List.takeWhile_append_of_pos ht]
  rcases rest with _ | ⟨c, rest⟩
  · simp
  · have := (hr c rfl).1
    simp [this]

theorem numeralTail_append {rest : List Char} (hr : Ended rest) (hp : rest.head? ≠ some '.') :
    ∀ (text : List Char) (prev : Char), (∀ d ∈ text, isAsciiDigit d = true ∨ d = '.') →
      numeralTail prev (text ++ rest) = text
  | [], prev, _ => by
    rcases rest with _ | ⟨c, rest⟩
    · rfl
    · obtain ⟨hc, plus, minus⟩ := hr c rfl
      have letter : isAsciiLetter c = false := by
        by_contra h
        rw [isNamePart_of_start (isNameStart_of_letter (by simpa using h))] at hc
        cases hc
      have digit : isAsciiDigit c = false := by
        by_contra h
        rw [isNamePart_of_digit (by simpa using h)] at hc
        cases hc
      have point : c ≠ '.' := by simpa using hp
      have underscore : c ≠ '_' := by
        rintro rfl
        cases hc
      simp [numeralTail, letter, digit, point, underscore, plus, minus]
  | d :: text, prev, h => by
    obtain ⟨hd, ht⟩ := List.forall_mem_cons.1 h
    have goes : (isAsciiLetter d || isAsciiDigit d || d == '.' || d == '_' ||
        ((d == '+' || d == '-') && (prev == 'e' || prev == 'E'))) = true := by
      rcases hd with hd | rfl
      · simp [hd]
      · simp
    rw [List.cons_append, numeralTail, if_pos goes, numeralTail_append hr hp text d ht]

namespace Lexes

variable {rest : List Char} {ts : List Token}

/-- A bracket, or an operator that does not depend on what follows it. -/
theorem symbol {c : Char} {t : Token} (text : List Char) (hc : isBlank c = false)
    (hs : symbol? (c :: (text ++ rest)) = some (t, text.length + 1)) (h : Lexes rest ts) :
    Lexes (c :: (text ++ rest)) (t :: ts) :=
  .token hc (fun start stop => by rw [Grammar.token, hs]) h

theorem mark {c : Char} {t : Token} (hc : isBlank c = false)
    (hs : symbol? (c :: rest) = some (t, 1)) (h : Lexes rest ts) : Lexes (c :: rest) (t :: ts) :=
  symbol [] hc hs h

theorem ident {s : String} (hs : isName s = true) (hr : Ended rest) (h : Lexes rest ts) :
    Lexes (s.toList ++ rest) (.ident s :: ts) := by
  obtain ⟨c, text, heq, hc, ht⟩ := isName_chars hs
  obtain ⟨symbol, quote⟩ := not_symbol_of_nameStart hc
  have digit : (c == '.' || isAsciiDigit c) = false := by
    have point : c ≠ '.' := ne_of_test hc rfl
    simp [point, not_digit_of_nameStart hc]
  have name : String.ofList (c :: text) = s := by rw [← heq, String.ofList_toList]
  rw [heq]
  refine .token (not_blank_of_namePart (isNamePart_of_start hc)) (fun start stop => ?_) h
  rw [Grammar.token, symbol?_eq_none symbol]
  simp only [quote, digit, hc, takeWhile_name ht hr, name, Bool.false_eq_true, if_false, if_true,
    List.length_cons]

theorem number {text : List Char} (hn : IsNumeral text) (hr : Ended rest)
    (hp : rest.head? ≠ some '.') (h : Lexes rest ts) :
    Lexes (text ++ rest) (.number text :: ts) := by
  obtain ⟨c, digits, rfl, hc, hd⟩ := hn
  obtain ⟨symbol, quote⟩ := not_symbol_of_digit hc
  refine .token (not_blank_of_namePart (isNamePart_of_digit hc)) (fun start stop => ?_) h
  rw [Grammar.token, symbol?_eq_none symbol]
  simp only [quote, hc, numeralTail_append hr hp digits _ hd, Bool.false_eq_true, if_false,
    Bool.or_true, if_true, List.length_cons]

/-- A text between quotes. -/
theorem quoted {mark : Char} (hm : isQuote mark = true) {body : List Char} (hb : Quotable mark body)
    (h : Lexes rest ts) :
    Lexes (mark :: (body ++ mark :: rest))
      ((if mark == '\x60' then .template body else .string body) :: ts) := by
  have split : body ++ mark :: rest = (body ++ [mark]) ++ rest := by simp
  have cases : mark = '"' ∨ mark = '\'' ∨ mark = '\x60' := by
    simpa [isQuote, or_assoc] using hm
  have plain : isBlank mark = false ∧ mark ∉ symbolChars := by
    rcases cases with rfl | rfl | rfl <;> decide
  rw [split]
  refine .token plain.1 (fun start stop => ?_) h
  rw [← split, Grammar.token, symbol?_eq_none plain.2]
  simp only [hm, if_true, hb.closeQuote]
  simp

theorem string (s : String) (h : Lexes rest ts) :
    Lexes ((stringLiteral s).toList ++ rest) (.string (s.toList.flatMap stringLiteralChar) :: ts) := by
  have := quoted rfl (quotable_string s.toList) h
  simpa [stringLiteral] using this

end Lexes

end Grammar

/-! ## The tokens of an expression -/

/-- The token of a prefix operator. -/
def UnaryOp.token : UnaryOp → Token
  | not => .bang
  | neg => .minus
  | plus => .plus
  | typeOf => .ident "typeof"

/-- The token of a binary operator. -/
def BinaryOp.token : BinaryOp → Token
  | mul => .star
  | div => .slash
  | rem => .percent
  | add => .plus
  | sub => .minus
  | lt => .lt
  | gt => .gt
  | le => .le
  | ge => .ge
  | eq => .eqEq
  | ne => .notEq
  | strictEq => .eqEqEq
  | strictNe => .notEqEq
  | and => .andAnd
  | or => .orOr
  | nullish => .nullish

/-- The token of a string literal. -/
def stringToken (s : String) : Token := .string (s.toList.flatMap stringLiteralChar)

/-- The token of a literal: a string, a number or a word. -/
def Value.token : Value → Token
  | .text s => stringToken s
  | v => if v.isNumeral then .number v.literalText.toList else .ident v.literalText

/-- The tokens of an operand, in parentheses if it binds less tightly than its place asks. -/
def enclose (needed actual : Nat) (ts : List Token) : List Token :=
  if actual < needed then .openParen :: (ts ++ [.closeParen]) else ts

/-- The token of a key. -/
def keyToken (k : String) : Token := if isPlainKey k then .ident k else stringToken k

mutual

/-- The tokens of an expression as it is printed. -/
def Expr.tokens : Expr → List Token
  | .literal _ v => [v.token]
  | .template _ parts => [.template (printParts parts).toList]
  | .name _ n => [.ident n]
  | .self _ => [.ident "this"]
  | .root .. | .method .. | .function .. => []
  | .member _ o p optional =>
    enclose 8 o.precedence o.tokens ++ [if optional then .questionDot else .dot, .ident p]
  | .index _ o i optional =>
    enclose 8 o.precedence o.tokens ++ ((if optional then [.questionDot] else []) ++
      .openBracket :: (i.tokens ++ [.closeBracket]))
  | .call _ callee args =>
    enclose 8 callee.precedence callee.tokens ++
      .openParen :: ([.comma].intercalate (tokensAll args) ++ [.closeParen])
  | .unary _ op e => op.token :: enclose 7 e.precedence e.tokens
  | .binary _ op l r =>
    enclose op.precedence l.precedence l.tokens ++
      op.token :: enclose (op.precedence + 1) r.precedence r.tokens
  | .conditional _ c t e =>
    enclose 1 c.precedence c.tokens ++ .question :: (t.tokens ++ .colon :: e.tokens)
  | .array _ items => .openBracket :: ([.comma].intercalate (tokensAll items) ++ [.closeBracket])
  | .object _ entries => .openBrace :: ([.comma].intercalate (tokensEntries entries) ++ [.closeBrace])
  | .arrow _ params body =>
    .openParen :: ([.comma].intercalate (params.map fun p => [.ident p]) ++ .closeParen :: .arrow ::
      (if body.isObject then .openParen :: (body.tokens ++ [.closeParen]) else body.tokens))

def tokensAll : List Expr → List (List Token)
  | [] => []
  | e :: rest => e.tokens :: tokensAll rest

def tokensEntries : List (String × Expr) → List (List Token)
  | [] => []
  | (k, e) :: rest => (keyToken k :: .colon :: e.tokens) :: tokensEntries rest

end

/-- A text in front of something that does not go on with it is cut into given tokens. A point may
follow only where it is allowed. -/
def Spells (point : Bool) (text : List Char) (ts : List Token) : Prop :=
  ∀ (rest : List Char) (us : List Token), Ended rest → (point = false → rest.head? ≠ some '.') →
    Lexes rest us → Lexes (text ++ rest) (ts ++ us)

namespace Spells

variable {point : Bool} {text : List Char} {ts : List Token}

theorem weaken (h : Spells true text ts) : Spells point text ts :=
  fun rest us hr _ hl => h rest us hr nofun hl

theorem ident {s : String} (hs : isName s = true) : Spells true s.toList [.ident s] :=
  fun _ _ hr _ h => .ident hs hr h

theorem parentheses {text : String} (h : Spells point text.toList ts) :
    Spells true ("(" ++ text ++ ")").toList (.openParen :: (ts ++ [.closeParen])) := by
  intro rest us hr _ hl
  have closing : Lexes (')' :: rest) (.closeParen :: us) := .mark rfl rfl hl
  have inside := h (')' :: rest) _ (.cons _ (by decide)) (by simp) closing
  have all : Lexes ('(' :: (text.toList ++ ')' :: rest)) _ := .mark rfl rfl inside
  simpa using all

theorem enclose {text : String} (h : Spells point text.toList ts) (needed actual : Nat) :
    Spells (decide (actual < needed) || point) (parenthesize needed actual text).toList
      (enclose needed actual ts) := by
  unfold parenthesize LiveTemplate.enclose
  split
  · exact h.parentheses.weaken
  · rename_i hlt
    simpa [hlt] using h

theorem separated {texts : List String} {tss : List (List Token)}
    (h : List.Forall₂ (fun s ts => Spells false s.toList ts) texts tss) :
    Spells false (", ".intercalate texts).toList ([.comma].intercalate tss) := by
  induction h with
  | nil => exact fun _ _ _ _ h => h
  | @cons s ts texts tss hs hrest ih =>
    cases hrest with
    | nil => simpa using hs
    | @cons s' ts' texts tss hs' hrest =>
      intro rest us hr hp hl
      have others := ih rest us hr hp hl
      have comma : Lexes (',' :: ' ' :: ((", ".intercalate (s' :: texts)).toList ++ rest))
        (.comma :: ([.comma].intercalate (ts' :: tss) ++ us)) := .mark rfl rfl (.blank rfl others)
      have all := hs _ _ (.cons _ (by decide)) (by simp) comma
      simpa [String.intercalate_cons_cons, List.intercalate_cons_cons] using all

end Spells

theorem Value.Written.spells : ∀ {v : Value}, v.Written →
    Spells (!v.isNumeral) v.literalText.toList [v.token]
  | .null, _ => .ident (s := "null") (by decide)
  | .bool b, _ => by cases b <;> exact .ident (by decide)
  | .text s, _ => fun _ _ _ _ h => .string s h
  | .int i, h => by
    intro rest us hr hp hl
    have nonneg : 0 ≤ i.toInt := by simpa using Int64.le_iff_toInt_le.1 h
    have numeral := isNumeral_natText i.toInt.toNat
    rw [← Decimal.intText_of_nonneg nonneg] at numeral
    exact .number numeral hr (hp rfl) hl
  | .float x, h => by
    rcases h with rfl | rfl | ⟨⟨m, hm⟩, hn⟩
    · exact .ident (s := (Value.float nan).literalText) (by decide +kernel)
    · exact .ident (s := (Value.float (1.0 / 0.0)).literalText) (by decide +kernel)
    · intro rest us hr hp hl
      have numeral : (Value.float x).isNumeral = true := by simp [isNumeral, hm]
      have token : (Value.float x).token = .number (Value.floatText x).toList := by
        simp [Value.token, numeral, literalText]
      rw [token]
      exact .number (isNumeral_floatText hm hn) hr (hp (by simp [numeral])) hl

theorem lexes_binaryOp (op : BinaryOp) {rest : List Char} {us : List Token} (h : Lexes rest us) :
    Lexes (' ' :: (op.symbol.toList ++ ' ' :: rest)) (op.token :: us) := by
  refine .blank rfl ?_
  have after : Lexes (' ' :: rest) us := .blank rfl h
  cases op
  case mul | div | rem | add | sub | lt | gt => exact .mark rfl rfl after
  case le | ge | eq | ne | and | or | nullish => exact .symbol [_] rfl rfl after
  case strictEq | strictNe => exact .symbol [_, _] rfl rfl after

/-- The tokens that an expression begins with. -/
def Grammar.Token.opens : Token → Bool
  | .ident _ | .number _ | .string _ | .template _ | .openParen | .openBracket | .openBrace
  | .bang | .plus | .minus => true
  | _ => false

/-- Tokens that begin like an expression. -/
def Opens (ts : List Token) : Prop := ∃ t us, ts = t :: us ∧ t.opens = true

theorem Opens.append {ts : List Token} (h : Opens ts) (us : List Token) : Opens (ts ++ us) := by
  obtain ⟨t, ts, rfl, ht⟩ := h
  exact ⟨t, ts ++ us, rfl, ht⟩

theorem Opens.enclose {ts : List Token} (h : Opens ts) (needed actual : Nat) :
    Opens (enclose needed actual ts) := by
  unfold LiveTemplate.enclose
  split
  · exact ⟨_, _, rfl, rfl⟩
  · exact h

theorem Value.opens_token (v : Value) : v.token.opens = true := by
  unfold Value.token
  split
  · rfl
  · split <;> rfl

theorem Expr.Written.opens : ∀ {e : Expr}, e.Written → Opens e.tokens
  | .literal _ v, _ => by
    rw [Expr.tokens]
    exact ⟨_, _, rfl, v.opens_token⟩
  | .template .., _ | .name .., _ | .self _, _ | .array .., _ | .object .., _ | .arrow .., _ => by
    rw [Expr.tokens]
    exact ⟨_, _, rfl, rfl⟩
  | .unary _ op _, _ => by
    rw [Expr.tokens]
    exact ⟨_, _, rfl, by cases op <;> rfl⟩
  | .member _ o _ _, h => by
    rw [Expr.Written] at h
    rw [Expr.tokens]
    exact (h.2.opens.enclose _ _).append _
  | .index _ o _ _, h | .call _ o _, h | .binary _ _ o _, h | .conditional _ o _ _, h => by
    rw [Expr.Written] at h
    rw [Expr.tokens]
    exact (h.1.opens.enclose _ _).append _
  | .root .., h | .method .., h | .function .., h => by
    rw [Expr.Written] at h
    exact h.elim

theorem Grammar.symbol?_equals {rest : List Char} {t : Token} {n : Nat}
    (h : symbol? ('=' :: rest) = some (t, n)) : t.opens = false := by
  obtain ⟨some, _, whole, -⟩ := symbol?_split h
  cases t <;> first | rfl | exact absurd rfl some | cases whole

theorem Grammar.symbol?_bang {rest : List Char} (h : rest.head? ≠ some '=') :
    symbol? ('!' :: rest) = some (.bang, 1) := by
  rcases rest with _ | ⟨c, rest⟩
  · rfl
  · have other : c ≠ '=' := by simpa using h
    rw [symbol?]
    all_goals simp [other]

/-- A text that begins like an expression does not go on with an exclamation mark before it. -/
theorem Grammar.Lexes.head_ne {text : List Char} {ts : List Token} (h : Lexes text ts)
    (ho : Opens ts) : text.head? ≠ some '=' := by
  obtain ⟨t, us, rfl, ht⟩ := ho
  rcases h with _ | ⟨hc, -⟩ | ⟨-, htoken, -⟩
  · rintro ⟨⟩
    cases hc
  · rintro ⟨⟩
    have found := htoken 0 0
    unfold Grammar.token at found
    split at found
    · rename_i hs
      cases found
      rw [symbol?_equals hs] at ht
      cases ht
    · cases found

theorem lexes_unaryOp (op : UnaryOp) {rest : List Char} {us : List Token} (h : Lexes rest us)
    (ho : Opens us) : Lexes (op.symbol.toList ++ rest) (op.token :: us) := by
  cases op with
  | not => exact .mark rfl (symbol?_bang (h.head_ne ho)) h
  | neg => exact .mark rfl rfl h
  | plus => exact .mark rfl rfl h
  | typeOf =>
    have word : Lexes ("typeof".toList ++ ' ' :: rest) (.ident "typeof" :: us) :=
      .ident (by decide) (.cons _ (by decide)) (.blank rfl h)
    simpa [UnaryOp.symbol, UnaryOp.token] using word

theorem Value.Written.precedence {s : Span} : ∀ {v : Value}, v.Written →
    (Expr.literal s v).precedence = 8
  | .null, _ | .bool _, _ | .text _, _ => rfl
  | .int i, h => by
    have : ¬ i < 0 := Int64.not_lt.2 h
    simp [Expr.precedence, this]
  | .float x, h => by
    have positive : Decimal.isNegative x = false := by
      rcases h with rfl | rfl | ⟨-, hn⟩
      · decide +kernel
      · decide +kernel
      · exact hn
    simp [Expr.precedence, positive]

theorem Spells.key (k : String) :
    Spells false (if isPlainKey k then k else stringLiteral k).toList [keyToken k] := by
  unfold keyToken
  split
  case isTrue h => exact (Spells.ident (isName_of_isPlainKey h)).weaken
  case isFalse => exact fun _ _ _ _ h => .string k h

mutual

/-- The printed form of an expression is cut into its tokens. -/
theorem Expr.Written.spells : ∀ {e : Expr}, e.Written → e.Reprintable →
    Spells (decide (8 ≤ e.precedence) && !e.isNumeral) e.print.toList e.tokens
  -- In every case the text is put together from its end, as each part is read up to what follows it.
  | .literal _ v, h, _ => by
    rw [Expr.Written] at h
    rw [Expr.print, Expr.tokens, h.precedence]
    exact h.spells
  | .template _ parts, h, _ => by
    rw [Expr.Written] at h
    intro rest us hr hp hl
    have all := Lexes.quoted rfl (quotable_printParts h) hl
    simpa [Expr.print, Expr.tokens] using all
  | .name _ n, h, _ => by
    rw [Expr.Written] at h
    rw [Expr.print, Expr.tokens]
    exact (Spells.ident h.1).weaken
  | .self _, _, _ => by
    rw [Expr.print, Expr.tokens]
    exact (Spells.ident (by decide)).weaken
  | .member _ o p optional, h, hs => by
    rw [Expr.Written] at h
    simp only [Expr.Reprintable, Expr.subterms, List.forall_mem_cons] at hs
    intro rest us hr hp hl
    have name : Lexes (p.toList ++ rest) (.ident p :: us) := .ident h.1 hr hl
    have head : ((p.toList ++ rest).head?.map isAsciiDigit).getD false = false := by
      obtain ⟨c, text, heq, hc, -⟩ := isName_chars h.1
      simp [heq, not_digit_of_nameStart hc]
    have operand := (h.2.spells hs.2).enclose 8 o.precedence
    cases optional with
    | false =>
      have access : Lexes ('.' :: (p.toList ++ rest)) (.dot :: .ident p :: us) := by
        refine .mark rfl ?_ name
        rw [symbol?, if_neg (by simpa using head)]
      have numeral : o.isNumeral = false := hs.1
      have all := operand _ _ (.cons _ (by decide)) (by simp [numeral]) access
      simpa [Expr.print, Expr.tokens] using all
    | true =>
      have access : Lexes ('?' :: '.' :: (p.toList ++ rest)) (.questionDot :: .ident p :: us) := by
        refine .symbol ['.'] rfl ?_ name
        rw [List.singleton_append, symbol?, if_neg (by simpa using head)]
        rfl
      have all := operand _ _ (.cons _ (by decide)) (by simp) access
      simpa [Expr.print, Expr.tokens] using all
  | .index _ o i optional, h, hs => by
    rw [Expr.Written] at h
    simp only [Expr.Reprintable, Expr.subterms, List.forall_mem_cons, List.forall_mem_append] at hs
    intro rest us hr hp hl
    have closing : Lexes (']' :: rest) (.closeBracket :: us) := .mark rfl rfl hl
    have inside := (h.2.spells hs.2.2) _ _ (.cons _ (by decide)) (by simp) closing
    have opening : Lexes ('[' :: (i.print.toList ++ ']' :: rest)) _ := .mark rfl rfl inside
    have operand := (h.1.spells hs.2.1).enclose 8 o.precedence
    cases optional with
    | false =>
      have all := operand _ _ (.cons _ (by decide)) (by simp) opening
      simpa [Expr.print, Expr.tokens] using all
    | true =>
      have access : Lexes ('?' :: '.' :: '[' :: (i.print.toList ++ ']' :: rest)) _ :=
        .symbol ['.'] rfl rfl opening
      have all := operand _ _ (.cons _ (by decide)) (by simp) access
      simpa [Expr.print, Expr.tokens] using all
  | .call _ callee args, h, hs => by
    rw [Expr.Written] at h
    simp only [Expr.Reprintable, Expr.subterms, List.forall_mem_cons, List.forall_mem_append] at hs
    intro rest us hr hp hl
    have closing : Lexes (')' :: rest) (.closeParen :: us) := .mark rfl rfl hl
    have inside := Spells.separated (spells_printAll h.2 hs.2.2) _ _ (.cons _ (by decide)) (by simp)
      closing
    have opening : Lexes ('(' :: ((", ".intercalate (printAll args)).toList ++ ')' :: rest)) _ :=
      .mark rfl rfl inside
    have operand := (h.1.spells hs.2.1).enclose 8 callee.precedence
    have all := operand _ _ (.cons _ (by decide)) (by simp) opening
    simpa [Expr.print, Expr.tokens, argumentList] using all
  | .unary _ op e, h, hs => by
    rw [Expr.Written] at h
    simp only [Expr.Reprintable, Expr.subterms, List.forall_mem_cons] at hs
    intro rest us hr hp hl
    have operand := (h.spells hs.2).enclose 7 e.precedence
    have inside := operand rest us hr (fun _ => hp rfl) hl
    have all := lexes_unaryOp op inside ((h.opens.enclose _ _).append us)
    simpa [Expr.print, Expr.tokens] using all
  | .binary _ op l r, h, hs => by
    rw [Expr.Written] at h
    simp only [Expr.Reprintable, Expr.subterms, List.forall_mem_cons, List.forall_mem_append] at hs
    intro rest us hr hp hl
    have plain : decide (8 ≤ (Expr.binary ‹_› op l r).precedence) = false := by
      cases op <;> rfl
    have right := (h.2.spells hs.2.2).enclose (op.precedence + 1) r.precedence
      rest us hr (fun _ => hp (by simp [plain])) hl
    have left := (h.1.spells hs.2.1).enclose op.precedence l.precedence
      _ _ (.cons _ (by decide)) (by simp) (lexes_binaryOp op right)
    simpa [Expr.print, Expr.tokens] using left
  | .conditional _ c t e, h, hs => by
    rw [Expr.Written] at h
    simp only [Expr.Reprintable, Expr.subterms, List.forall_mem_cons, List.forall_mem_append] at hs
    intro rest us hr hp hl
    have no := (h.2.2.spells hs.2.2.2) rest us hr (fun _ => hp rfl) hl
    have colon : Lexes (' ' :: ':' :: ' ' :: (e.print.toList ++ rest)) _ :=
      .blank rfl (.mark rfl rfl (.blank rfl no))
    have yes := (h.2.1.spells hs.2.2.1) _ _ (.cons _ (by decide)) (by simp) colon
    have question : Lexes (' ' :: '?' :: ' ' :: (t.print.toList ++
        ' ' :: ':' :: ' ' :: (e.print.toList ++ rest))) _ :=
      .blank rfl (.mark rfl rfl (.blank rfl yes))
    have all := (h.1.spells hs.2.1).enclose 1 c.precedence
      _ _ (.cons _ (by decide)) (by simp) question
    simpa [Expr.print, Expr.tokens] using all
  | .array _ items, h, hs => by
    rw [Expr.Written] at h
    simp only [Expr.Reprintable, Expr.subterms, List.forall_mem_cons] at hs
    intro rest us hr hp hl
    have closing : Lexes (']' :: rest) (.closeBracket :: us) := .mark rfl rfl hl
    have inside := Spells.separated (spells_printAll h hs.2) _ _ (.cons _ (by decide)) (by simp)
      closing
    have all : Lexes ('[' :: ((", ".intercalate (printAll items)).toList ++ ']' :: rest)) _ :=
      .mark rfl rfl inside
    simpa [Expr.print, Expr.tokens] using all
  | .object _ entries, h, hs => by
    rw [Expr.Written] at h
    simp only [Expr.Reprintable, Expr.subterms, List.forall_mem_cons] at hs
    intro rest us hr hp hl
    have closing : Lexes ('}' :: rest) (.closeBrace :: us) := .mark rfl rfl hl
    rcases entries with _ | ⟨entry, entries⟩
    · have all : Lexes ('{' :: '}' :: rest) _ := .mark rfl rfl closing
      simpa [Expr.print, Expr.tokens, printEntries, tokensEntries, braced] using all
    · have inside := Spells.separated (spells_printEntries h hs.1 hs.2) _ _
        (.cons _ (by decide)) (by simp) (.blank (c := ' ') rfl closing)
      have all : Lexes ('{' :: ' ' :: ((", ".intercalate (printEntries (entry :: entries))).toList ++
          ' ' :: '}' :: rest)) _ := .mark rfl rfl (.blank rfl inside)
      have some : (printEntries (entry :: entries)).isEmpty = false := by simp [printEntries]
      simpa [Expr.print, Expr.tokens, braced, some] using all
  | .arrow _ params body, h, hs => by
    rw [Expr.Written] at h
    simp only [Expr.Reprintable, Expr.subterms, List.forall_mem_cons] at hs
    intro rest us hr hp hl
    have names : List.Forall₂ (fun s ts => Spells false s.toList ts) params
        (params.map fun p => [.ident p]) :=
      List.forall₂_map_right_iff.2 (List.forall₂_same.2 fun p hp => (Spells.ident (h.1 p hp)).weaken)
    have inside : Lexes ((if body.isObject then "(" ++ body.print ++ ")" else body.print).toList ++ rest)
        ((if body.isObject then .openParen :: (body.tokens ++ [.closeParen]) else body.tokens) ++ us) := by
      split
      · exact (h.2.spells hs.2).parentheses rest us hr nofun hl
      · exact h.2.spells hs.2 rest us hr (fun _ => hp rfl) hl
    have arrow : Lexes (' ' :: '=' :: '>' :: ' ' :: ((if body.isObject then "(" ++ body.print ++ ")"
        else body.print).toList ++ rest)) _ := .blank rfl (.symbol ['>'] rfl rfl (.blank rfl inside))
    have closing := Spells.separated names _ _ (.cons _ (by decide)) (by simp)
      (Lexes.mark (c := ')') rfl rfl arrow)
    have all := Lexes.mark (c := '(') rfl rfl closing
    simpa [Expr.print, Expr.tokens] using all
  | .root .., h, _ | .method .., h, _ | .function .., h, _ => by
    rw [Expr.Written] at h
    exact h.elim

theorem spells_printAll : ∀ {es : List Expr}, writtenAll es → (∀ x ∈ subtermsAll es, x.SafeForm) →
    List.Forall₂ (fun s ts => Spells false s.toList ts) (printAll es) (tokensAll es)
  | [], _, _ => by
    rw [printAll, tokensAll]
    exact .nil
  | e :: es, h, hs => by
    rw [writtenAll] at h
    simp only [subtermsAll, List.forall_mem_append] at hs
    rw [printAll, tokensAll]
    exact .cons (fun rest us hr hp hl => h.1.spells hs.1 rest us hr (fun _ => hp rfl) hl)
      (spells_printAll h.2 hs.2)

theorem spells_printEntries : ∀ {entries : List (String × Expr)}, writtenEntries entries →
    (∀ s k, (k, Expr.name s k) ∈ entries → k ∉ reservedWords) →
    (∀ x ∈ subtermsEntries entries, x.SafeForm) →
    List.Forall₂ (fun s ts => Spells false s.toList ts) (printEntries entries) (tokensEntries entries)
  | [], _, _, _ => by
    rw [printEntries, tokensEntries]
    exact .nil
  | (k, e) :: entries, h, hk, hs => by
    have written := writtenEntries_head h hk
    rw [writtenEntries] at h
    simp only [subtermsEntries, List.forall_mem_append] at hs
    rw [printEntries, tokensEntries]
    refine .cons (fun rest us hr hp hl => ?_)
      (spells_printEntries h.2 (fun s k hm => hk s k (List.mem_cons_of_mem _ hm)) hs.2)
    have value := written.spells hs.1 rest us hr (fun _ => hp rfl) hl
    have colon : Lexes (':' :: ' ' :: (e.print.toList ++ rest)) _ := .mark rfl rfl (.blank rfl value)
    have all := Spells.key k _ _ (.cons _ (by decide)) (by simp) colon
    simpa using all

end

end LiveTemplate
