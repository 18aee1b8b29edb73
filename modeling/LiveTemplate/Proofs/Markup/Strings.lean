/-
Strings in a template. The scan for the brace that ends a braced part goes over its strings, so they are
closed in it; the keyword of a directive has no quotes, and that of a loop header is looked for outside
of strings, so they are closed in every expression and in the variables that are read from the part.
The lexer of expressions agrees with the scan: it finds none of these strings undelimited, and no
interpolation in them unclosed.
-/
import LiveTemplate.Markup.Directive
import LiveTemplate.Proofs.Expr.Strings
import LiveTemplate.Proofs.Markup.Division

namespace LiveTemplate

open Text Delimiter Grammar Relation

namespace Markup

/-! ## Braced parts -/

theorem enclosed_of_closeBrace {opened : Nat} {rest inside after : List Char}
    (h : closeBrace opened rest = .ok (inside, after)) : Enclosed none inside.dropLast := by
  obtain ⟨inner, rfl⟩ := closeBrace_inner h
  have whole := eq_of_close h
  rw [List.append_assoc] at whole
  rw [whole] at h
  rw [List.dropLast_concat]
  exact (closeBrace_eq_iff opened inner after).1 h

/-- What a braced part of a template holds is enclosed. -/
theorem enclosed_of_braced {r : Region} : ∀ {fuel pos : Nat} {cs : List Char},
    .braced r ∈ (tokensFrom fuel pos cs).1 → Enclosed none r.text
  | 0, _, _, h => by cases h
  | _ + 1, _, [], h => by cases h
  | fuel + 1, pos, c :: rest, h => by
    have next {token : Token} {p : Nat} {more : List Char}
        (h : .braced r ∈ token :: (tokensFrom fuel p more).1)
        (here : .braced r = token → Enclosed none r.text) : Enclosed none r.text := by
      rcases List.mem_cons.1 h with eq | others
      · exact here eq
      · exact enclosed_of_braced others
    rw [tokensFrom] at h
    dsimp only at h
    -- a guarded brace, a pair of braces, a comment, a tag or a run of text
    split at h
    · exact next h (by rintro ⟨⟩)
    · split at h
      · split at h
        case h_1 inside after closed =>
          refine next h fun eq => ?_
          cases eq
          exact enclosed_of_closeBrace closed
        case h_2 => cases h
      · split at h
        · exact enclosed_of_braced h
        · split at h
          · split at h
            · exact next h (by rintro ⟨⟩)
            · cases List.mem_singleton.1 h
          · exact next h (by rintro ⟨⟩)

/-! ## Loop headers -/

theorem findKeyword_strung {keyword : List Char} {last : Bool} (plain : ∀ c ∈ keyword, isQuote c = false)
    {fuel i j : Nat} {depth : Int} {afterBlank : Bool} {cs : List Char} (hs : Strung cs)
    (h : findKeyword keyword last fuel i depth afterBlank cs = some j) :
    ∃ front back, cs = front ++ keyword ++ back ∧ j = i + front.length ∧ Strung front ∧
      Strung back := by
  induction fuel generalizing i depth afterBlank cs with
  | zero => cases h
  | succ fuel ih =>
    cases cs with
    | nil => cases h
    | cons c rest =>
      -- what is found behind a character that is no quote
      have next {depth : Int} (other : isQuote c = false)
          (h : findKeyword keyword last fuel (i + 1) depth (isAsciiBlank c) rest = some j) :
          ∃ front back, c :: rest = front ++ keyword ++ back ∧ j = i + front.length ∧ Strung front ∧
            Strung back := by
        obtain ⟨front, back, rfl, rfl, before, behind⟩ := ih (hs.tail other) h
        refine ⟨c :: front, back, rfl, ?_, .plain other before, behind⟩
        rw [List.length_cons]
        omega
      rw [findKeyword] at h
      dsimp only at h
      split at h
      case isTrue opening => exact next (isQuote_of_test (p := fun c => c == '(' || c == '[' || c == '{') rfl rfl rfl opening) h
      split at h
      case isTrue closing => exact next (isQuote_of_test (p := fun c => c == ')' || c == ']' || c == '}') rfl rfl rfl closing) h
      split at h
      case isTrue quote =>
        obtain ⟨text, after, rfl, inside, others, closed⟩ := hs.closeQuote quote
        rw [closed] at h
        obtain ⟨front, back, rfl, rfl, before, behind⟩ := ih others h
        refine ⟨c :: (text ++ c :: front), back, by simp, ?_, .string quote inside before, behind⟩
        simp only [List.length_cons, List.length_append, List.length_nil]
        omega
      case isFalse quote =>
        have other : isQuote c = false := by simpa using quote
        split at h
        case isFalse => exact next other h
        case isTrue found =>
          simp only [Bool.and_eq_true, decide_eq_true_eq, List.isPrefixOf_iff_prefix] at found
          obtain ⟨⟨⟨-, back, whole⟩, -⟩, -⟩ := found
          have here : ∃ front back, c :: rest = front ++ keyword ++ back ∧ i = i + front.length ∧
              Strung front ∧ Strung back := by
            rw [← whole] at hs
            exact ⟨[], back, whole.symm, rfl, .nil, hs.behind plain⟩
          cases last with
          | false =>
            cases h
            exact here
          | true =>
            rcases (Option.orElse_eq_some _ _ _).1 h with later | ⟨-, eq⟩
            · exact next other later
            · cases eq
              exact here

theorem splitAtKeyword_strung {keyword : String} {last : Bool} {r a b : Region}
    (plain : ∀ c ∈ keyword.toList, isQuote c = false) (hs : Strung r.text)
    (h : splitAtKeyword keyword last r = some (a, b)) : Strung a.text ∧ Strung b.text := by
  obtain ⟨i, found, eq⟩ := Option.map_eq_some_iff.1 h
  obtain ⟨front, back, whole, rfl, before, behind⟩ := findKeyword_strung plain hs found
  cases eq
  show Strung (r.text.take _) ∧ Strung (r.text.drop _)
  rw [whole, Nat.zero_add]
  constructor
  · simpa using before
  · rwa [← String.length_toList, ← List.length_append, List.drop_left]

/-! ## Directives -/

namespace Directive

/-- The regions of the expressions in a directive. -/
def regions : Directive → List Region
  | ifOpen r | unlessOpen r | elseIf r | eachOpen r _ | forOpen _ r | html r | json r
  | expression r => [r]
  | elseOnly | ifClose | unlessClose | eachClose | forClose => []

/-- The loop variables of a directive. -/
def binding? : Directive → Option LoopBinding
  | eachOpen _ binding | forOpen binding _ => some binding
  | _ => none

/-- The keywords of directives that hold an expression. -/
def keywords : List String := ["#if", "#unless", "#each", "#for", ":else", "@html", "@json"]

/-- A braced part begins with a keyword, behind which stands `rest`. -/
def Heads (braced : Region) (keyword : String) (rest : Region) : Prop :=
  let length := 1 + ((braced.trim.text.drop 1).takeWhile (!isBlank ·)).length
  keyword = (braced.trim.take length).toString ∧ rest = (braced.trim.drop length).trim

/-- The regions of expressions and loop variables that the reading of a braced part derives from it,
whether or not it gives a directive then. -/
inductive Derives (braced : Region) : Region → Prop
  | whole : Derives braced braced.trim
  | operand {keyword : String} {rest : Region} : Heads braced keyword rest → keyword ∈ keywords →
    Derives braced rest
  | condition {rest : Region} {more : List Char} : Heads braced ":else" rest →
    rest.text = 'i' :: 'f' :: more → Derives braced (rest.drop 2).trim
  | before {keyword word : String} {last : Bool} {rest a b : Region} : Heads braced keyword rest →
    (keyword, word, last) ∈ [("#each", "as", true), ("#for", "in", false)] →
      splitAtKeyword word last rest = some (a, b) → Derives braced a.trim
  | behind {keyword word : String} {last : Bool} {rest a b : Region} : Heads braced keyword rest →
    (keyword, word, last) ∈ [("#each", "as", true), ("#for", "in", false)] →
      splitAtKeyword word last rest = some (a, b) → Derives braced b.trim

theorem Heads.strung {braced rest : Region} {keyword : String} (h : Heads braced keyword rest)
    (known : keyword ∈ keywords) (hs : Strung braced.text) : Strung rest.text := by
  obtain ⟨rfl, rfl⟩ := h
  have plain : ∀ word ∈ keywords, ∀ c ∈ word.toList, isQuote c = false := by
    simp [keywords, isQuote]
  refine (hs.trim.drop fun c hc => plain _ known c ?_).trim
  rwa [Region.toString, String.toList_ofList]

/-- In what is derived from a braced part, the strings are closed. -/
theorem Derives.strung {braced e : Region} (h : Derives braced e) (hs : Strung braced.text) :
    Strung e.text := by
  have parts {keyword word : String} {last : Bool} {rest a b : Region}
      (heads : Heads braced keyword rest)
      (header : (keyword, word, last) ∈ [("#each", "as", true), ("#for", "in", false)])
      (split : splitAtKeyword word last rest = some (a, b)) : Strung a.text ∧ Strung b.text := by
    have known : keyword ∈ keywords ∧ ∀ c ∈ word.toList, isQuote c = false := by
      simp only [List.mem_cons, List.not_mem_nil, or_false, Prod.mk.injEq] at header
      rcases header with ⟨rfl, rfl, -⟩ | ⟨rfl, rfl, -⟩ <;> simp [keywords, isQuote]
    exact splitAtKeyword_strung known.2 (heads.strung known.1 hs) split
  cases h with
  | whole => exact hs.trim
  | operand heads known => exact heads.strung known hs
  | condition heads text =>
    refine ((heads.strung (by simp [keywords]) hs).drop fun c hc => ?_).trim
    rw [text] at hc
    simp only [List.take_succ_cons, List.take_zero, List.mem_cons, List.not_mem_nil, or_false] at hc
    rcases hc with rfl | rfl <;> rfl
  | before heads header split => exact (parts heads header split).1.trim
  | behind heads header split => exact (parts heads header split).2.trim

end Directive

theorem loopParams_accounts (ts : List Grammar.Lexeme) :
    Accounts False (fun _ => True) (loopParams ts) := by
  unfold loopParams
  split
  · trivial
  · trivial
  · exact (loopParams_accounts _).map fun _ _ => trivial
  · exact fun h => nomatch h
  · exact fun h => nomatch h

theorem parseBinding_strung {r : Region} (hs : Strung r.text) :
    Accounts False (fun _ => True) (parseBinding r) := by
  unfold parseBinding
  refine (tokens_strung _ hs).bind fun ts _ => (loopParams_accounts _).bind fun params _ => ?_
  exact .ite (fun _ h => nomatch h) fun _ => trivial

namespace Directive

/-- What is read off a braced part was derived from it. -/
def Derived (braced : Region) (d : Directive) : Prop :=
  (∀ e ∈ d.regions, Derives braced e) ∧
    ∀ binding ∈ d.binding?, ∃ r, Derives braced r ∧ parseBinding r = .ok binding

theorem parse_strung {braced : Region} (hs : Strung braced.text) :
    Accounts False (Derived braced) (Directive.parse braced) := by
  -- a directive with one expression and no variables
  have one {d : Directive} {e : Region} (he : Derives braced e) (regions : d.regions = [e])
      (binding : d.binding? = none) : Derived braced d := by
    refine ⟨fun x hx => ?_, by simp [binding]⟩
    rw [regions] at hx
    rwa [List.mem_singleton.1 hx]
  unfold Directive.parse
  refine .ite (fun _ => one .whole rfl rfl) fun _ => ?_
  extract_lets length head rest needed alone
  have heads : Heads braced head.toString rest := ⟨rfl, rfl⟩
  clear_value rest head
  have hneeded (r : Region) : Accounts False (· = r) (needed r) := by
    unfold needed
    split
    · exact fun h => nomatch h
    · exact rfl
  have halone (d : Directive) (regions : d.regions = []) (binding : d.binding? = none) :
      Accounts False (Derived braced) (alone d) := by
    unfold alone
    split
    · exact ⟨by simp [regions], by simp [binding]⟩
    · exact fun h => nomatch h
  clear_value alone needed
  generalize head.toString = keyword at heads ⊢
  -- the operand of a directive, unless it is missing
  have operand {make : Region → Directive} (known : keyword ∈ keywords)
      (regions : ∀ e, (make e).regions = [e]) (binding : ∀ e, (make e).binding? = none) :
      Accounts False (Derived braced) ((needed rest).map make) := by
    refine (hneeded rest).map ?_
    rintro r rfl
    exact one (.operand heads known) (regions r) (binding r)
  split
  case h_1 => exact operand (by simp [keywords]) (fun _ => rfl) fun _ => rfl
  case h_2 => exact operand (by simp [keywords]) (fun _ => rfl) fun _ => rfl
  case h_3 =>
    refine (hneeded rest).bind ?_
    rintro r rfl
    split
    case h_1 => exact fun h => nomatch h
    case h_2 collection binding split =>
      have named : Derives braced binding.trim := .behind heads (by simp) split
      refine (parseBinding_strung (named.strung hs)).self.bind fun b hb => ⟨?_, ?_⟩
      · simpa [regions] using Derives.before heads (by simp) split
      · simpa [binding?] using ⟨_, named, hb⟩
  case h_4 =>
    refine (hneeded rest).bind ?_
    rintro r rfl
    split
    case h_1 => exact fun h => nomatch h
    case h_2 binding collection split =>
      have named : Derives braced binding.trim := .before heads (by simp) split
      refine (parseBinding_strung (named.strung hs)).self.bind fun b hb => ?_
      refine (hneeded collection.trim).bind ?_
      rintro e rfl
      refine ⟨?_, ?_⟩
      · simpa [regions] using Derives.behind heads (by simp) split
      · simpa [binding?] using ⟨_, named, hb⟩
  case h_5 =>
    have test {more : List Char} (text : rest.text = 'i' :: 'f' :: more) :
        Accounts False (Derived braced) ((needed (rest.drop 2).trim).map .elseIf) := by
      refine (hneeded _).map ?_
      rintro e rfl
      exact one (.condition heads text) rfl rfl
    split
    case h_1 => exact ⟨by simp [regions], by simp [binding?]⟩
    case h_2 text => exact test text
    case h_3 text => exact test text
    case h_4 text => exact test text
    case h_5 => exact fun h => nomatch h
  case h_6 => exact halone _ rfl rfl
  case h_7 => exact halone _ rfl rfl
  case h_8 => exact halone _ rfl rfl
  case h_9 => exact halone _ rfl rfl
  case h_10 => exact operand (by simp [keywords]) (fun _ => rfl) fun _ => rfl
  case h_11 => exact operand (by simp [keywords]) (fun _ => rfl) fun _ => rfl
  case h_12 => exact fun h => nomatch h

end Directive

/-! ## Agreement -/

/-- The scan for braces and the lexer of expressions agree on strings. -/
theorem strings_agree (source : String) {braced : Region}
    (h : .braced braced ∈ (tokens source.toList).1) :
    (∀ fault, Directive.parse braced = .error fault → fault.cause.kind ≠ .lexical) ∧
    (∀ d, Directive.parse braced = .ok d → d.Derived braced) ∧
    ∀ e, Directive.Derives braced e →
      (∀ fault, Expr.parse e = .error fault → fault.cause.kind ≠ .lexical) ∧
      ∀ i, ReflTransGen Interpolation e i → Delimited i := by
  have strung : Strung braced.text := (enclosed_of_braced h).strung
  have parsed := Directive.parse_strung strung
  refine ⟨parsed.never, ?_, fun e he => ?_⟩
  · rintro d hd
    rw [hd] at parsed
    exact parsed
  · have inside := he.strung strung
    exact ⟨(Grammar.parse_strung inside).never, fun i reached => delimited_of_reached inside reached⟩

/-- A loop over a list with a template string: the scan goes over the brace in the inner string, and so
does the lexer in the interpolation. -/
theorem strings_agree_nested :
    let braced : Region := ⟨1, "#each [`$\x7b'\x7d'\x7d`] as x".toList⟩
    let collection : Region := ⟨7, "[`$\x7b'\x7d'\x7d`]".toList⟩
    let inner : Region := ⟨11, "'\x7d'".toList⟩
    .braced braced ∈ (tokens "\x7b#each [`$\x7b'\x7d'\x7d`] as x\x7d".toList).1 ∧
      Directive.Derives braced collection ∧ Interpolation collection inner ∧ Delimited inner := by
  intro braced collection inner
  have mem : .braced braced ∈ (tokens "\x7b#each [`$\x7b'\x7d'\x7d`] as x\x7d".toList).1 := by
    decide +kernel
  obtain ⟨-, derived, agree⟩ := strings_agree "\x7b#each [`$\x7b'\x7d'\x7d`] as x\x7d" mem
  have parsed : Directive.parse braced =
      .ok (.eachOpen collection ⟨["x"], some implicitIndex, false⟩) := by decide +kernel
  have e : Directive.Derives braced collection := (derived _ parsed).1 _ (by simp [Directive.regions])
  have met : Meets collection ⟨.template "$\x7b'\x7d'\x7d".toList, ⟨8, 16⟩⟩ :=
    .later (t := .openBracket) (n := 1) (by rfl) (by rfl) (.here (n := 8) (by rfl) (by rfl))
  have opens : OpensAt collection 9 "'\x7d'\x7d".toList := ⟨_, _, met, .start⟩
  have closed : closeBrace 10 "'\x7d'\x7d".toList = .ok ("'\x7d'\x7d".toList, []) := by decide +kernel
  have i : Interpolation collection inner := Interpolation.hole opens closed
  exact ⟨mem, e, i, (agree _ e).2 _ (.single i)⟩

end Markup

end LiveTemplate
