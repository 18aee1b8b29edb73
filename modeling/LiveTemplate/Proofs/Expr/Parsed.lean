/-
What the grammar gives. The names among the tokens of a region are names and its numbers begin with
a digit or a point; what such tokens form are expressions that can be written. It follows that a parsed
expression whose parts are read as they are printed is the same after it was printed and parsed again.
-/
import LiveTemplate.Proofs.Expr.Derivation
import LiveTemplate.Proofs.Expr.RoundTrip

namespace LiveTemplate

open Text Grammar

namespace Grammar

/-! ## Tokens -/

/-- A token that a text can begin with. -/
def Token.Genuine : Token → Prop
  | .ident name => isName name = true
  | .number text => ∃ c rest, text = c :: rest ∧ (isAsciiDigit c = true ∨ c = '.')
  | _ => True

/-- All tokens of a list can be read from a text. -/
def Genuine (ts : List Lexeme) : Prop := ∀ t ∈ ts, t.token.Genuine

theorem Genuine.nil : Genuine [] := by simp [Genuine]

theorem Genuine.head {t : Lexeme} {ts : List Lexeme} (h : Genuine (t :: ts)) : t.token.Genuine :=
  h t (by simp)

theorem Genuine.suffix {ts rest : List Lexeme} (h : Genuine ts) (hs : rest <:+ ts) : Genuine rest :=
  fun t ht => h t (hs.subset ht)

theorem Genuine.tail {t : Lexeme} {ts : List Lexeme} (h : Genuine (t :: ts)) : Genuine ts :=
  h.suffix (List.suffix_cons t ts)

theorem symbol?_genuine {text : List Char} {t : Token} {n : Nat} (h : symbol? text = some (t, n)) :
    t.Genuine := by
  have some := (symbol?_split h).1
  cases t <;> trivial

theorem token_genuine {start stop n : Nat} {c : Char} {rest : List Char} {t : Token}
    (h : token start stop c rest = .ok (t, n)) : t.Genuine := by
  cases begins_of_token h with
  | symbol found => exact symbol?_genuine found
  | string => trivial
  | template => trivial
  | number first => exact ⟨c, _, rfl, by simpa [or_comm] using first⟩
  | ident first => simp [Token.Genuine, isName, first]

theorem tokens_genuine (fuel : Nat) : ∀ {region : Region} {ts : List Lexeme},
    tokens fuel region = .ok ts → Genuine ts := by
  induction fuel with
  | zero =>
    intro region ts h
    cases h
    exact .nil
  | succ fuel ih =>
    intro region ts h
    rw [tokens] at h
    dsimp only at h
    split at h
    · cases h
      exact .nil
    · obtain ⟨⟨found, length⟩, htoken, h⟩ := results_of_bind h
      obtain ⟨others, hothers, h⟩ := results_of_bind h
      cases h
      exact List.forall_mem_cons.2 ⟨token_genuine htoken, ih hothers⟩

/-! ## Literals -/

/-- A decimal is read as a number or as infinity. -/
theorem bits_readDecimal {cs : List Char} {n : Decimal.Numeral} (h : Decimal.readDecimal cs = some n) :
    n.bits Decimal.double ≤ Decimal.double.infinity := by
  obtain ⟨digits, exponent, rfl⟩ : ∃ digits exponent, n = .decimal digits exponent := by
    unfold Decimal.readDecimal at h
    dsimp only at h
    split at h
    all_goals
      split at h
      · cases h
      · obtain ⟨e, -, rfl⟩ := Option.map_eq_some_iff.1 h
        exact ⟨_, _, rfl⟩
  unfold Decimal.Numeral.bits
  dsimp only
  split
  · exact Nat.zero_le _
  · split
    · exact Nat.le_refl _
    · exact Nat.min_le_right _ _

/-- A numeral without a sign gives no negative number. -/
theorem parseDouble_written {c : Char} {rest : List Char} (hc : isAsciiDigit c = true ∨ c = '.')
    {x : Float} (h : Decimal.parseDouble (c :: rest) = some x) : (Value.float x).Written := by
  rw [Decimal.parseDouble, Decimal.readNumeral_of_digit rest hc, Option.map_map] at h
  obtain ⟨n, hn, rfl⟩ := Option.map_eq_some_iff.1 h
  show _ ∨ _ ∨ _
  rcases Nat.eq_or_lt_of_le (bits_readDecimal hn) with infinite | finite
  · refine .inr (.inl ?_)
    simp only [Function.comp, infinite]
    rfl
  · exact .inr (.inr (Decimal.reading_ofMagnitudeBits finite))

theorem ofNat_written {n : Nat} (h : n < Decimal.pow2 63) : (Value.int (Int64.ofNat n)).Written := by
  show 0 ≤ Int64.ofNat n
  have small : n < 2 ^ 63 := h
  rw [Int64.le_iff_toInt_le, Int64.toInt_ofNat_of_lt small]
  simp

theorem numeral?_written {text : List Char} {v : Value} (ht : (Token.number text).Genuine)
    (h : numeral? text = some v) : v.Written := by
  obtain ⟨c, rest, rfl, hc⟩ := ht
  have first : (c :: rest).filter (· != '_') = c :: rest.filter (· != '_') := by
    refine List.filter_cons_of_pos (bne_iff_ne.2 ?_)
    rcases hc with hc | rfl
    · exact ne_of_test hc rfl
    · decide
  rw [numeral?, first] at h
  split at h
  · split at h
    · split at h
      case isTrue hn =>
        cases h
        exact ofNat_written hn
      case isFalse => cases h
    · cases h
  · split at h
    case isTrue hn =>
      cases h
      simp only [Bool.and_eq_true, decide_eq_true_eq] at hn
      exact ofNat_written hn.2
    case isFalse =>
      obtain ⟨x, hx, rfl⟩ := Option.map_eq_some_iff.1 h
      exact parseDouble_written hc hx

theorem wordExpr_written {name : String} (h : isName name = true) (ht : name ≠ "typeof") (s : Span) :
    (wordExpr s name).Written := by
  unfold wordExpr
  split <;> simp_all [Expr.Written, Value.Written, reservedWords]

theorem pushChar_written {parts : List TemplatePart} (h : writtenParts parts) (c : Char) :
    writtenParts (pushChar c parts) := by
  unfold pushChar
  split
  case h_1 t rest =>
    rw [writtenParts] at h ⊢
    exact ⟨by simp [← String.toList_inj], h.2⟩
  case h_2 hne =>
    rw [writtenParts]
    refine ⟨by simp [← String.toList_inj], ?_, h⟩
    rcases parts with _ | ⟨_ | _, parts⟩
    · rfl
    · exact absurd rfl (hne _ _)
    · rfl

theorem withSpan_written {e : Expr} (h : e.Written) (s : Span) : (e.withSpan s).Written := by
  cases e <;> simp_all [Expr.withSpan, Expr.Written]

/-! ## The grammar -/

theorem paramsTail_genuine {ts rest : List Lexeme} {params : List String}
    (h : Parser.paramsTail ts = some (params, rest)) (hts : Genuine ts) :
    ∀ p ∈ params, isName p = true := by
  fun_induction Parser.paramsTail ts generalizing params rest with
  | case1 name _ _ more ih =>
    obtain ⟨⟨names, after⟩, hn, hp⟩ := Option.map_eq_some_iff.1 h
    cases hp
    exact List.forall_mem_cons.2 ⟨hts.head, ih hn hts.tail.tail⟩
  | case2 name =>
    cases h
    exact List.forall_mem_singleton.2 hts.head
  | case3 => cases h

theorem arrowParams_genuine {ts rest : List Lexeme} {params : List String}
    (h : Parser.arrowParams ts = some (params, rest)) (hts : Genuine ts) :
    ∀ p ∈ params, isName p = true := by
  unfold Parser.arrowParams at h
  split at h
  · cases h
    exact List.forall_mem_singleton.2 hts.head
  · cases h
    simp
  · exact paramsTail_genuine h hts.tail
  · cases h

mutual

/-- What is formed by tokens that a text can begin with can be written. -/
theorem Forms.written : ∀ {ts : List Lexeme} {e : Expr} {rest : List Lexeme}, Forms ts e rest →
    Genuine ts → e.Written
  | _, _, _, .number number hv, h => by
    have genuine := h.head
    rw [number] at genuine
    simpa [Expr.Written] using numeral?_written genuine hv
  | _, _, _, .string _ _, _ => by simp [Expr.Written, Value.Written]
  | _, _, _, .template _ hp, _ => by simpa [Expr.Written] using hp.written
  | _, _, _, .word word hn, h => by
    have genuine := h.head
    rw [word] at genuine
    exact wordExpr_written genuine hn _
  | _, _, _, .parentheses _ he _, h => withSpan_written (he.written h.tail) _
  | _, _, _, .array _ hi, h => by simpa [Expr.Written] using hi.written h.tail
  | _, _, _, .object _ he, h => by simpa [Expr.Written] using he.written h.tail
  | _, _, _, .member _ ho _, h => by
    simpa [Expr.Written] using ⟨(h.suffix ho.suffix).tail.head, ho.written h⟩
  | _, _, _, .index ho marked _ hi _, h => by
    have inside := (h.suffix (marked.suffix.trans ho.suffix)).tail
    simpa [Expr.Written] using ⟨ho.written h, hi.written inside⟩
  | _, _, _, .call hc marked _ ha, h => by
    have inside := (h.suffix (marked.suffix.trans hc.suffix)).tail
    simpa [Expr.Written] using ⟨hc.written h, ha.written inside⟩
  | _, _, _, .cut he _, h => he.written h
  | _, _, _, .unary _ he, h => by simpa [Expr.Written] using he.written h.tail
  | _, _, _, .binary hl _ hr, h => by
    simpa [Expr.Written] using ⟨hl.written h, hr.written (h.suffix hl.suffix).tail⟩
  | _, _, _, .conditional ht _ hy _ hn, h => by
    have behind := (h.suffix ht.suffix).tail
    have last := (behind.suffix hy.suffix).tail
    simpa [Expr.Written] using ⟨ht.written h, hy.written behind, hn.written last⟩
  | _, _, _, .arrow hp hb, h => by
    have behind := h.suffix (Parser.arrowParams_suffix hp)
    simpa [Expr.Written] using ⟨arrowParams_genuine hp h, hb.written behind⟩

theorem FormsList.written : ∀ {closing : Token} {ts : List Lexeme} {es : List Expr} {s : Span}
    {rest : List Lexeme}, FormsList closing ts es s rest → Genuine ts → writtenAll es
  | _, _, _, _, _, .nil, _ => trivial
  | _, _, _, _, _, .last he, h => ⟨he.written h, trivial⟩
  | _, _, _, _, _, .cons he _ ho, h => ⟨he.written h, ho.written (h.suffix he.suffix).tail⟩

/-- Only as a shorthand a reserved word may be both the key and the value. -/
theorem FormsEntry.written : ∀ {ts : List Lexeme} {key : String} {value : Expr} {rest : List Lexeme},
    FormsEntry ts key value rest → Genuine ts →
      (∃ s, value = .name s key ∧ isName key = true ∧ key ∈ reservedWords) ∨ value.Written
  | _, _, _, _, .pair _ _ hv, h => .inr (hv.written h.tail.tail)
  | _, key, _, _, .short word, h => by
    have genuine := h.head
    rw [word] at genuine
    by_cases reserved : key ∈ reservedWords
    · exact .inl ⟨_, rfl, genuine, reserved⟩
    · exact .inr (by simpa [Expr.Written] using ⟨genuine, reserved⟩)

theorem FormsEntries.written : ∀ {ts : List Lexeme} {entries : List (String × Expr)} {s : Span}
    {rest : List Lexeme}, FormsEntries ts entries s rest → Genuine ts → writtenEntries entries
  | _, _, _, _, .nil _, _ => trivial
  | _, _, _, _, .last he _, h => ⟨he.written h, trivial⟩
  | _, _, _, _, .cons he _ ho, h => ⟨he.written h, ho.written (h.suffix he.suffix).tail⟩

theorem FormsParts.written : ∀ {pos : Nat} {cs : List Char} {parts : List TemplatePart},
    FormsParts pos cs parts → writtenParts parts
  | _, _, _, .done _ _ => trivial
  | _, _, _, .hole _ cut he ho => ⟨he.written (tokens_genuine _ cut), ho.written⟩
  | _, _, _, .escape _ ho => pushChar_written ho.written _
  | _, _, _, .char ho => pushChar_written ho.written _

end

end Grammar

/-- A parsed expression can be written. -/
theorem Expr.written_of_parse {region : Region} {e : Expr} (h : Expr.parse region = .ok e) :
    e.Written := by
  obtain ⟨ts, cut, forms⟩ := Expr.forms_of_parse h
  exact forms.written (tokens_genuine _ cut)

theorem Expr.Written.parse_print {e : Expr} (h : e.Written) (hp : e.Reprintable) (start : Nat) :
    (Expr.parse ⟨start, e.print.toList⟩).map Expr.bare = .ok e.bare := by
  obtain ⟨e', he, hb⟩ := h.parseRegion_print hp (h.recognized hp) start
    (show 8 * e.print.toList.length + 1 ≤ 8 * (e.print.toList.length + 2) by omega)
  rw [Expr.parse, he]
  exact congrArg Except.ok hb

/-- An expression of which no part is read differently than it was printed is printed and parsed
again as it was, its regions apart. -/
theorem Expr.parse_print_of_parse {region : Region} {e : Expr} (h : Expr.parse region = .ok e)
    (hp : e.Reprintable) (start : Nat) :
    (Expr.parse ⟨start, e.print.toList⟩).map Expr.bare = .ok e.bare :=
  (Expr.written_of_parse h).parse_print hp start

/-- A dollar before a hole, an object as the body of an arrow, signs before signs and a difference
within a difference. -/
theorem Expr.parse_print_of_parse_nested :
    let source := "a ? x => (\x7bk: `$$\x7bx\x7d`\x7d) : -(-b) - (c - 1.5)"
    ∃ e, Expr.parse (.whole source) = .ok e ∧ e.Reprintable ∧
      e.print = "a ? (x) => (\x7b k: `$$\x7bx\x7d` \x7d) : --b - (c - 1.5)" ∧
      (Expr.parse (.whole e.print)).map Expr.bare = .ok e.bare := by
  intro source
  have run : (Expr.parse (.whole source)).toOption.map (fun e => (e.print, decide e.Reprintable)) =
      some ("a ? (x) => (\x7b k: `$$\x7bx\x7d` \x7d) : --b - (c - 1.5)", true) := by
    decide +kernel
  rcases h : Expr.parse (.whole source) with fault | e
  · rw [h] at run
    cases run
  · rw [h] at run
    simp only [Except.toOption, Option.map_some, Option.some.injEq, Prod.mk.injEq, decide_eq_true_eq] at run
    exact ⟨e, rfl, run.2, run.1, Expr.parse_print_of_parse h run.2 0⟩

end LiveTemplate
