/-
How the tokens of a printed expression are read. Each level of the grammar reads the tokens of an
expression that binds tightly enough for it, and gives the expression back up to the regions it
notes. Chains of operators and of accesses are read from the left, so what one level leaves to its
tail is said with the exact bound on the depth that remains.
-/
import LiveTemplate.Proofs.Expr.Lexing

namespace LiveTemplate

open Text Grammar

/-! ## Expressions up to regions -/

mutual

/-- An expression without the regions it was read from. -/
def Expr.bare : Expr → Expr
  | .literal _ v => .literal default v
  | .template _ parts => .template default (bareParts parts)
  | .name _ n => .name default n
  | .self _ => .self default
  | .root _ r => .root default r
  | .member _ o p q => .member default o.bare p q
  | .index _ o i q => .index default o.bare i.bare q
  | .call _ callee args => .call default callee.bare (bareAll args)
  | .method _ n args => .method default n (bareAll args)
  | .function _ n args => .function default n (bareAll args)
  | .unary _ op e => .unary default op e.bare
  | .binary _ op l r => .binary default op l.bare r.bare
  | .conditional _ c t e => .conditional default c.bare t.bare e.bare
  | .array _ items => .array default (bareAll items)
  | .object _ entries => .object default (bareEntries entries)
  | .arrow _ params body => .arrow default params body.bare

def bareAll : List Expr → List Expr
  | [] => []
  | e :: rest => e.bare :: bareAll rest

def bareEntries : List (String × Expr) → List (String × Expr)
  | [] => []
  | (k, e) :: rest => (k, e.bare) :: bareEntries rest

def bareParts : List TemplatePart → List TemplatePart
  | [] => []
  | .text t :: rest => .text t :: bareParts rest
  | .hole e :: rest => .hole e.bare :: bareParts rest

end

@[simp] theorem Expr.bare_withSpan (e : Expr) (s : Span) : (e.withSpan s).bare = e.bare := by
  cases e <;> simp [withSpan, bare]

namespace Grammar

/-! ## Steps of the parser -/

theorem bind_run {α β : Type} {p : Parser α} {f : α → Parser β} {ts rest : List Lexeme} {a : α}
    (h : p ts = .ok (a, rest)) : (p >>= f) ts = f a rest := by
  show Except.bind (p ts) _ = _
  rw [h]
  rfl

namespace Parser

variable {l : Lexeme} {ls : List Lexeme} {t : Token}

theorem eat_eq (h : l.token = t) : eat t (l :: ls) = .ok (some l.span, ls) := by
  rw [eat, if_pos h]

theorem eat_ne (h : ∀ l ∈ ls.head?, l.token ≠ t) : eat t ls = .ok (none, ls) := by
  cases ls with
  | nil => rfl
  | cons l ls => rw [eat, if_neg (h l rfl)]

theorem next_cons (stop : Nat) (what : String) (l : Lexeme) (ls : List Lexeme) :
    next stop what (l :: ls) = .ok (l, ls) := rfl

theorem expect_eq (stop : Nat) (h : l.token = t) : expect stop t (l :: ls) = .ok (l.span, ls) := by
  rw [expect, if_pos h]

end Parser

/-- The weight of the tokens read. -/
def weightOf (ls : List Lexeme) : Nat := weight (ls.map Lexeme.token)

/-- Tokens that an expression does not go on with. -/
def Token.ends : Token → Bool
  | .closeParen | .closeBracket | .closeBrace | .comma | .colon => true
  | _ => false

/-- Tokens that a chain of accesses goes on with. -/
def Token.links : Token → Bool
  | .dot | .questionDot | .openBracket | .openParen => true
  | _ => false

/-- An expression ends here. -/
def Ends (rest : List Lexeme) : Prop := ∀ l ∈ rest.head?, l.token.ends = true

/-- A chain of accesses ends here. -/
def Unlinked (rest : List Lexeme) : Prop := ∀ l ∈ rest.head?, l.token.links = false

/-- Only an operator that binds no tighter than a given one may come here. -/
def Yields (p : Nat) (rest : List Lexeme) : Prop :=
  Unlinked rest ∧ ∀ l ∈ rest.head?, ∀ op ∈ binaryOp? l.token, op.precedence ≤ p

theorem Ends.yields {rest : List Lexeme} (h : Ends rest) (p : Nat) : Yields p rest := by
  have plain : ∀ t : Token, t.ends = true → t.links = false ∧ binaryOp? t = none := by
    intro t ht
    cases t <;> cases ht <;> exact ⟨rfl, rfl⟩
  refine ⟨fun l hl => (plain _ (h l hl)).1, fun l hl op hop => ?_⟩
  rw [(plain _ (h l hl)).2] at hop
  cases hop

theorem binaryTail_yields {stop : Nat} {rest : List Lexeme} {p least : Nat} (h : Yields p rest)
    (hp : p < least) (fuel : Nat) (e : Expr) : binaryTail stop fuel least e rest = .ok (e, rest) := by
  cases fuel with
  | zero => rfl
  | succ fuel =>
    cases rest with
    | nil => rfl
    | cons l rest =>
      rw [binaryTail]
      dsimp only
      split
      · rename_i op hop
        rw [if_pos (Nat.lt_of_le_of_lt (h.2 l rfl op hop) hp)]
      · rfl

theorem postfixTail_unlinked {stop : Nat} {rest : List Lexeme} (h : Unlinked rest) (fuel : Nat)
    (e : Expr) : postfixTail stop fuel e rest = .ok (e, rest) := by
  cases fuel with
  | zero => rfl
  | succ fuel =>
    rw [postfixTail]
    cases rest with
    | nil => rfl
    | cons l rest =>
      obtain ⟨t, span⟩ := l
      have := h _ rfl
      cases t <;> cases this <;> rfl

section

variable (stop : Nat) (ls : List Lexeme) (e : Expr)

/-- The tokens are read as an expression. -/
def ReadsExpr : Prop :=
  ∀ (fuel : Nat) (rest : List Lexeme), 8 * weightOf ls ≤ fuel → Ends rest →
    ∃ e', expr stop fuel (ls ++ rest) = .ok (e', rest) ∧ e'.bare = e.bare

/-- The tokens are read as an operand in a chain of operators that bind at most as tightly as `p`,
and the rest is left to the tail of the chain. -/
def ReadsBinary (p : Nat) : Prop :=
  ∃ spine < weightOf ls, ∀ (fuel least : Nat) (rest : List Lexeme),
    8 * weightOf ls ≤ fuel + spine + 3 → least ≤ p → Yields p rest →
      ∃ e', binaryExpr stop (fuel + spine + 1) least (ls ++ rest) = binaryTail stop fuel least e' rest ∧
        e'.bare = e.bare

/-- The tokens are read as the operand of a prefix operator. -/
def ReadsUnary : Prop :=
  ∀ (fuel : Nat) (rest : List Lexeme), 8 * weightOf ls ≤ fuel + 3 → Unlinked rest →
    ∃ e', unaryExpr stop fuel (ls ++ rest) = .ok (e', rest) ∧ e'.bare = e.bare

/-- The tokens, of which the first is no prefix operator, are read as the beginning of a chain of
accesses. -/
def ReadsChain : Prop :=
  (∀ l ∈ ls.head?, unaryOp? l.token = none) ∧ ∃ links < weightOf ls, ∀ (fuel : Nat) (rest : List Lexeme),
    8 * weightOf ls ≤ fuel + links + 5 →
      ∃ e', postfixExpr stop (fuel + links + 1) (ls ++ rest) = postfixTail stop fuel e' rest ∧
        e'.bare = e.bare

/-- The tokens are read as a primary expression. -/
def ReadsPrimary : Prop :=
  ∀ (fuel : Nat) (rest : List Lexeme), 8 * weightOf ls ≤ fuel + 5 →
    ∃ e', primary stop fuel (ls ++ rest) = .ok (e', rest) ∧ e'.bare = e.bare

end

variable {stop : Nat} {ls : List Lexeme} {e : Expr}

theorem ReadsPrimary.chain (h : ReadsPrimary stop ls e) (hw : 0 < weightOf ls)
    (ho : ∀ l ∈ ls.head?, unaryOp? l.token = none) : ReadsChain stop ls e := by
  refine ⟨ho, 0, hw, fun fuel rest hf => ?_⟩
  obtain ⟨e', he, hb⟩ := h fuel rest (by omega)
  refine ⟨e', ?_, hb⟩
  rw [postfixExpr, bind_run he]

theorem ReadsChain.unary (h : ReadsChain stop ls e) : ReadsUnary stop ls e := by
  obtain ⟨ho, links, hl, h⟩ := h
  intro fuel rest hf hr
  obtain ⟨fuel, rfl⟩ : ∃ n, fuel = n + links + 1 + 1 := ⟨fuel - links - 2, by omega⟩
  obtain ⟨e', he, hb⟩ := h fuel rest (by omega)
  refine ⟨e', ?_, hb⟩
  rw [unaryExpr]
  rcases ls with _ | ⟨l, ls⟩
  · cases hl
  · simp only [List.cons_append, ho l rfl]
    rw [← List.cons_append, he, postfixTail_unlinked hr]

theorem ReadsUnary.binary (h : ReadsUnary stop ls e) (hw : 0 < weightOf ls) (p : Nat) :
    ReadsBinary stop ls e p := by
  refine ⟨0, hw, fun fuel least rest hf _ hr => ?_⟩
  obtain ⟨e', he, hb⟩ := h fuel rest hf hr.1
  refine ⟨e', ?_, hb⟩
  rw [binaryExpr, bind_run he]

theorem ReadsBinary.mono {p q : Nat} (h : ReadsBinary stop ls e p) (hq : q ≤ p) :
    ReadsBinary stop ls e q := by
  obtain ⟨spine, hs, h⟩ := h
  exact ⟨spine, hs, fun fuel least rest hf hl hr =>
    h fuel least rest hf (by omega) ⟨hr.1, fun l hl op hop => Nat.le_trans (hr.2 l hl op hop) hq⟩⟩

theorem ReadsBinary.expr {p : Nat} (h : ReadsBinary stop ls e p) (hp : 1 ≤ p)
    (ha : ∀ rest, Ends rest → Parser.arrowParams (ls ++ rest) = none) : ReadsExpr stop ls e := by
  obtain ⟨spine, hs, h⟩ := h
  intro fuel rest hf hr
  obtain ⟨fuel, rfl⟩ : ∃ n, fuel = n + spine + 1 + 1 + 1 := ⟨fuel - spine - 3, by omega⟩
  obtain ⟨e', he, hb⟩ := h fuel 1 rest (by omega) hp (hr.yields p)
  refine ⟨e', ?_, hb⟩
  rw [Grammar.expr]
  simp only [ha rest hr]
  rw [binaryTail_yields (hr.yields 0) (by omega)] at he
  rw [conditionalExpr, bind_run he]
  have plain : ∀ l ∈ rest.head?, l.token ≠ .question := by
    intro l hl he
    have := hr l hl
    rw [he] at this
    cases this
  rw [bind_run (Parser.eat_ne plain)]
  rfl

/-! ## Parentheses that open no arrow function -/

/-- The tokens that stand after the parameters of an arrow function. -/
def Token.parts : Token → Bool
  | .comma | .closeParen | .arrow => true
  | _ => false

theorem Token.parts_of_opens {t : Token} (h : t.opens = true) : t.parts = false := by
  cases t <;> cases h <;> rfl

namespace Parser

theorem paramsTail_second {u : Lexeme} (hu : u.token.parts = false) (l : Lexeme)
    (more : List Lexeme) : paramsTail (l :: u :: more) = none := by
  rw [paramsTail]
  all_goals grind [Token.parts]

theorem paramsTail_first {l : Lexeme} (h : ∀ n, l.token ≠ .ident n) (more : List Lexeme) :
    paramsTail (l :: more) = none := by
  rw [paramsTail]
  all_goals grind

theorem arrowParams_paren {o l : Lexeme} (ho : o.token = .openParen) (hl : l.token.parts = false)
    (more : List Lexeme) : arrowParams (o :: l :: more) = paramsTail (l :: more) := by
  obtain ⟨t, s⟩ := o
  cases ho
  rw [arrowParams]
  all_goals grind [Token.parts]

theorem arrowParams_first {l : Lexeme} (hi : ∀ n, l.token ≠ .ident n) (ho : l.token ≠ .openParen)
    (more : List Lexeme) : arrowParams (l :: more) = none := by
  rw [arrowParams]
  all_goals grind

theorem arrowParams_second {l : Lexeme} (ho : l.token ≠ .openParen) {more : List Lexeme}
    (hm : more.head?.map Lexeme.token ≠ some .arrow) : arrowParams (l :: more) = none := by
  rw [arrowParams]
  all_goals grind

theorem paramsTail_suffix {ts rest : List Lexeme} {params : List String}
    (h : paramsTail ts = some (params, rest)) : rest <:+ ts := by
  fun_induction paramsTail ts generalizing params rest with
  | case1 name _ _ more ih =>
    obtain ⟨⟨names, after⟩, hn, hp⟩ := Option.map_eq_some_iff.1 h
    cases hp
    exact ((ih hn).trans (List.suffix_cons ..)).trans (List.suffix_cons ..)
  | case2 name =>
    cases h
    exact ⟨[_, _, _], rfl⟩
  | case3 => cases h

/-- What follows the parameters of an arrow function are the last of the tokens. -/
theorem arrowParams_suffix {ts rest : List Lexeme} {params : List String}
    (h : arrowParams ts = some (params, rest)) : rest <:+ ts := by
  unfold arrowParams at h
  split at h
  · cases h
    exact ⟨[_, _], rfl⟩
  · cases h
    exact ⟨[_, _, _], rfl⟩
  · exact (paramsTail_suffix h).trans (List.suffix_cons ..)
  · cases h

end Parser

/-- No list of parameters begins with the tokens and goes on. -/
def NoParams (ls : List Lexeme) : Prop :=
  ∀ (u : Lexeme) (more : List Lexeme), u.token.parts = false →
    Parser.paramsTail (ls ++ u :: more) = none

/-- No arrow function begins with the tokens. -/
def NoArrow (ls : List Lexeme) : Prop :=
  ∀ rest : List Lexeme, rest.head?.map Lexeme.token ≠ some .arrow →
    Parser.arrowParams (ls ++ rest) = none

theorem NoParams.append {ls ms : List Lexeme} {u : Lexeme} (h : NoParams ls)
    (hu : u.token.parts = false) : NoParams (ls ++ u :: ms) := by
  intro v more _
  rw [List.append_assoc]
  exact h u _ hu

theorem NoArrow.append {ls ms : List Lexeme} {u : Lexeme} (h : NoArrow ls)
    (hu : u.token.parts = false) : NoArrow (ls ++ u :: ms) := by
  intro rest _
  rw [List.append_assoc]
  refine h _ fun he => ?_
  rw [Option.some.inj he] at hu
  cases hu

theorem noParams_first {l : Lexeme} (h : ∀ n, l.token ≠ .ident n) (ls : List Lexeme) :
    NoParams (l :: ls) :=
  fun _ _ _ => Parser.paramsTail_first h _

theorem noParams_single (l : Lexeme) : NoParams [l] :=
  fun _ more hu => Parser.paramsTail_second hu l more

/-- Splits what was read as the tokens of an operand and more. -/
theorem map_append {ls : List Lexeme} {ts us : List Token} (h : ls.map Lexeme.token = ts ++ us) :
    ∃ as bs : List Lexeme, ls = as ++ bs ∧ as.map Lexeme.token = ts ∧ bs.map Lexeme.token = us :=
  List.map_eq_append_iff.1 h

theorem noParams_enclose {ts : List Token} {needed actual : Nat}
    (h : ∀ ls : List Lexeme, ls.map Lexeme.token = ts → NoParams ls) {ls : List Lexeme}
    (hl : ls.map Lexeme.token = enclose needed actual ts) : NoParams ls := by
  unfold enclose at hl
  split at hl
  · obtain ⟨l, ls, rfl, hl, -⟩ := List.map_eq_cons_iff.1 hl
    exact noParams_first (by simp [hl]) ls
  · exact h ls hl

/-- The tokens of an operand, and one that joins it with what follows. -/
theorem map_joined {ls : List Lexeme} {ts us : List Token} {t : Token}
    (h : ls.map Lexeme.token = ts ++ t :: us) (ht : t.parts = false) :
    ∃ as u bs, ls = as ++ u :: bs ∧ as.map Lexeme.token = ts ∧ u.token.parts = false := by
  obtain ⟨as, bs, rfl, ha, hb⟩ := map_append h
  obtain ⟨u, bs, rfl, rfl, -⟩ := List.map_eq_cons_iff.1 hb
  exact ⟨as, u, bs, rfl, ha, ht⟩

end Grammar

theorem BinaryOp.parts_token (op : BinaryOp) : op.token.parts = false := by
  cases op <;> rfl

theorem Expr.Written.noParams : ∀ {e : Expr}, e.Written → ∀ ls : List Lexeme,
    ls.map Lexeme.token = e.tokens → NoParams ls
  | .literal .., _, ls, hl | .template .., _, ls, hl | .name .., _, ls, hl | .self _, _, ls, hl => by
    rw [Expr.tokens] at hl
    obtain ⟨l, rfl, -⟩ := List.map_eq_singleton_iff.1 hl
    exact noParams_single l
  | .array .., _, ls, hl | .object .., _, ls, hl | .arrow .., _, ls, hl => by
    rw [Expr.tokens] at hl
    obtain ⟨l, ls, rfl, hl, -⟩ := List.map_eq_cons_iff.1 hl
    exact noParams_first (by simp [hl]) ls
  | .unary _ op e, h, ls, hl => by
    rw [Expr.Written] at h
    rw [Expr.tokens] at hl
    obtain ⟨l, ls, rfl, -, hl⟩ := List.map_eq_cons_iff.1 hl
    obtain ⟨t, us, ht, opens⟩ := h.opens.enclose 7 e.precedence
    rw [ht] at hl
    obtain ⟨m, ls, rfl, rfl, -⟩ := List.map_eq_cons_iff.1 hl
    exact (noParams_single l).append (Token.parts_of_opens opens)
  | .member _ o p optional, h, ls, hl => by
    rw [Expr.Written] at h
    rw [Expr.tokens] at hl
    obtain ⟨as, u, bs, rfl, ha, hu⟩ := map_joined hl (by cases optional <;> rfl)
    exact (noParams_enclose h.2.noParams ha).append hu
  | .index _ o i optional, h, ls, hl => by
    rw [Expr.Written] at h
    rw [Expr.tokens] at hl
    have joined : ∃ as u bs, ls = as ++ u :: bs ∧
        as.map Lexeme.token = enclose 8 o.precedence o.tokens ∧ u.token.parts = false := by
      cases optional <;> exact map_joined hl rfl
    obtain ⟨as, u, bs, rfl, ha, hu⟩ := joined
    exact (noParams_enclose h.1.noParams ha).append hu
  | .call _ o _, h, ls, hl | .conditional _ o _ _, h, ls, hl => by
    rw [Expr.Written] at h
    rw [Expr.tokens] at hl
    obtain ⟨as, u, bs, rfl, ha, hu⟩ := map_joined hl rfl
    exact (noParams_enclose h.1.noParams ha).append hu
  | .binary _ op l r, h, ls, hl => by
    rw [Expr.Written] at h
    rw [Expr.tokens] at hl
    obtain ⟨as, u, bs, rfl, ha, hu⟩ := map_joined hl op.parts_token
    exact (noParams_enclose h.1.noParams ha).append hu
  | .root .., h, _, _ | .method .., h, _, _ | .function .., h, _, _ => by
    rw [Expr.Written] at h
    exact h.elim

/-- An expression that stands in parentheses is no list of parameters. -/
theorem Expr.Written.paramsTail_eq_none {e : Expr} (h : e.Written) (hp : e.precedence < 8)
    {ls : List Lexeme} (hl : ls.map Lexeme.token = e.tokens) (more : List Lexeme) :
    Parser.paramsTail (ls ++ more) = none := by
  cases e with
  | literal _ v =>
    rw [Expr.Written] at h
    rw [h.precedence] at hp
    omega
  | unary _ op e =>
    rw [Expr.Written] at h
    rw [Expr.tokens] at hl
    obtain ⟨l, ls, rfl, -, hl⟩ := List.map_eq_cons_iff.1 hl
    obtain ⟨t, us, ht, opens⟩ := h.opens.enclose 7 e.precedence
    rw [ht] at hl
    obtain ⟨m, ls, rfl, rfl, -⟩ := List.map_eq_cons_iff.1 hl
    exact Parser.paramsTail_second (Token.parts_of_opens opens) l _
  | binary _ op l r =>
    rw [Expr.Written] at h
    rw [Expr.tokens] at hl
    obtain ⟨as, u, bs, rfl, ha, hu⟩ := map_joined hl op.parts_token
    rw [List.append_assoc]
    exact noParams_enclose h.1.noParams ha u _ hu
  | conditional _ c t e =>
    rw [Expr.Written] at h
    rw [Expr.tokens] at hl
    obtain ⟨as, u, bs, rfl, ha, hu⟩ := map_joined hl rfl
    rw [List.append_assoc]
    exact noParams_enclose h.1.noParams ha u _ hu
  | arrow _ params body =>
    rw [Expr.tokens] at hl
    obtain ⟨l, ls, rfl, hl, -⟩ := List.map_eq_cons_iff.1 hl
    exact Parser.paramsTail_first (by simp [hl]) _
  | _ => exact absurd hp (by simp [Expr.precedence])

theorem Grammar.noArrow_enclose {o : Expr} {needed : Nat} (h : o.Written)
    (ih : 1 ≤ o.precedence → ∀ ls : List Lexeme, ls.map Lexeme.token = o.tokens → NoArrow ls)
    (hn : 1 ≤ needed ∧ needed ≤ 8) {ls : List Lexeme}
    (hl : ls.map Lexeme.token = enclose needed o.precedence o.tokens) : NoArrow ls := by
  unfold enclose at hl
  split at hl
  case isTrue hp =>
    intro rest _
    obtain ⟨p, ls, rfl, hp', hl⟩ := List.map_eq_cons_iff.1 hl
    obtain ⟨as, bs, rfl, ha, hb⟩ := map_append hl
    have none := h.paramsTail_eq_none (by omega) ha (bs ++ rest)
    obtain ⟨t, us, ht, opens⟩ := h.opens
    rw [ht] at ha
    obtain ⟨m, as, rfl, rfl, -⟩ := List.map_eq_cons_iff.1 ha
    simp only [List.cons_append, List.append_assoc] at none ⊢
    rw [Parser.arrowParams_paren hp' (Token.parts_of_opens opens), none]
  case isFalse hp => exact ih (by omega) ls hl

/-- Whether an expression is an arrow function. -/
def Expr.isArrow : Expr → Bool
  | .arrow .. => true
  | _ => false

theorem Expr.isArrow_of_precedence {e : Expr} (h : 1 ≤ e.precedence) : e.isArrow = false := by
  cases e with
  | arrow => cases h
  | _ => rfl

/-- An expression other than an arrow function is not taken for one. -/
theorem Expr.Written.noArrow : ∀ {e : Expr}, e.Written → e.isArrow = false →
    ∀ ls : List Lexeme, ls.map Lexeme.token = e.tokens → NoArrow ls
  | .literal _ v, _, _, ls, hl => by
    rw [Expr.tokens] at hl
    obtain ⟨l, rfl, ht⟩ := List.map_eq_singleton_iff.1 hl
    have word : l.token ≠ .openParen := by
      rw [ht]
      unfold Value.token stringToken
      split
      · simp
      · split <;> simp
    exact fun _ hr => Parser.arrowParams_second word hr
  | .template .., _, _, ls, hl | .name .., _, _, ls, hl | .self _, _, _, ls, hl => by
    rw [Expr.tokens] at hl
    obtain ⟨l, rfl, ht⟩ := List.map_eq_singleton_iff.1 hl
    exact fun _ hr => Parser.arrowParams_second (by simp [ht]) hr
  | .array .., _, _, ls, hl | .object .., _, _, ls, hl => by
    rw [Expr.tokens] at hl
    obtain ⟨l, ls, rfl, hl, -⟩ := List.map_eq_cons_iff.1 hl
    exact fun _ _ => Parser.arrowParams_first (by simp [hl]) (by simp [hl]) _
  | .unary _ op e, h, _, ls, hl => by
    rw [Expr.Written] at h
    rw [Expr.tokens] at hl
    obtain ⟨l, ls, rfl, hop, hl⟩ := List.map_eq_cons_iff.1 hl
    obtain ⟨t, us, ht, opens⟩ := h.opens.enclose 7 e.precedence
    rw [ht] at hl
    obtain ⟨m, ls, rfl, rfl, -⟩ := List.map_eq_cons_iff.1 hl
    refine fun rest _ => Parser.arrowParams_second (by rw [hop]; cases op <;> simp [UnaryOp.token]) ?_
    intro he
    rw [Option.some.inj he] at opens
    cases opens
  | .member _ o p optional, h, _, ls, hl => by
    rw [Expr.Written] at h
    rw [Expr.tokens] at hl
    obtain ⟨as, u, bs, rfl, ha, hu⟩ := map_joined hl (by cases optional <;> rfl)
    exact (noArrow_enclose h.2 (fun hp => h.2.noArrow (isArrow_of_precedence hp)) (by decide) ha).append hu
  | .index _ o i optional, h, _, ls, hl => by
    rw [Expr.Written] at h
    rw [Expr.tokens] at hl
    have joined : ∃ as u bs, ls = as ++ u :: bs ∧
        as.map Lexeme.token = enclose 8 o.precedence o.tokens ∧ u.token.parts = false := by
      cases optional <;> exact map_joined hl rfl
    obtain ⟨as, u, bs, rfl, ha, hu⟩ := joined
    exact (noArrow_enclose h.1 (fun hp => h.1.noArrow (isArrow_of_precedence hp)) (by decide) ha).append hu
  | .call _ o _, h, _, ls, hl | .conditional _ o _ _, h, _, ls, hl => by
    rw [Expr.Written] at h
    rw [Expr.tokens] at hl
    obtain ⟨as, u, bs, rfl, ha, hu⟩ := map_joined hl rfl
    exact (noArrow_enclose h.1 (fun hp => h.1.noArrow (isArrow_of_precedence hp)) (by decide) ha).append hu
  | .binary _ op l r, h, _, ls, hl => by
    rw [Expr.Written] at h
    rw [Expr.tokens] at hl
    obtain ⟨as, u, bs, rfl, ha, hu⟩ := map_joined hl op.parts_token
    exact (noArrow_enclose h.1 (fun hp => h.1.noArrow (isArrow_of_precedence hp))
      (by cases op <;> decide) ha).append hu
  | .root .., h, _, _, _ | .method .., h, _, _, _ | .function .., h, _, _, _ => by
    rw [Expr.Written] at h
    exact h.elim

end LiveTemplate
