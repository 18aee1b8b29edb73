/-
Reading the tokens of each form of expression, given that the tokens of its parts are read: operands
and their parentheses, chains of accesses, lists and entries, operators, arrow functions and
literals.
-/
import LiveTemplate.Proofs.Expr.Parsing

namespace LiveTemplate

open Text Grammar

namespace Grammar

@[simp] theorem weightOf_nil : weightOf [] = 0 := rfl

@[simp] theorem weightOf_cons (l : Lexeme) (ls : List Lexeme) :
    weightOf (l :: ls) = l.token.weight + weightOf ls := by
  simp [weightOf]

@[simp] theorem weightOf_append (ls ms : List Lexeme) :
    weightOf (ls ++ ms) = weightOf ls + weightOf ms := by
  simp [weightOf]

theorem weightOf_pos {ls : List Lexeme} {ts : List Token} (hl : ls.map Lexeme.token = ts)
    (h : Opens ts) : 0 < weightOf ls := by
  obtain ⟨t, us, rfl, -⟩ := h
  obtain ⟨l, ls, rfl, -, -⟩ := List.map_eq_cons_iff.1 hl
  have := l.token.weight_pos
  rw [weightOf_cons]
  omega

variable {stop : Nat} {ls : List Lexeme} {e : Expr}

theorem ends_cons {l : Lexeme} (h : l.token.ends = true) (rest : List Lexeme) : Ends (l :: rest) := by
  simpa [Ends] using h

theorem reads_parentheses {o c : Lexeme} (ho : o.token = .openParen) (hc : c.token = .closeParen)
    (h : ReadsExpr stop ls e) : ReadsPrimary stop (o :: (ls ++ [c])) e := by
  intro fuel rest hf
  simp only [weightOf_cons, weightOf_append, weightOf_nil, ho, hc, Token.weight] at hf
  obtain ⟨fuel, rfl⟩ : ∃ n, fuel = n + 1 := ⟨fuel - 1, by omega⟩
  obtain ⟨e', he, hb⟩ := h fuel (c :: rest) (by omega) (ends_cons (by rw [hc]; rfl) rest)
  obtain ⟨t, span⟩ := o
  cases ho
  refine ⟨e'.withSpan (span.union c.span), ?_, by simpa using hb⟩
  rw [primary, List.cons_append, List.append_assoc, List.singleton_append,
    bind_run (Parser.next_cons ..)]
  dsimp only
  rw [bind_run he, bind_run (Parser.expect_eq stop hc)]
  rfl

/-- The tokens are read on every level of the grammar on which the expression may stand. -/
structure Recognized (stop : Nat) (ls : List Lexeme) (e : Expr) : Prop where
  expr : ReadsExpr stop ls e
  binary : 1 ≤ e.precedence → ReadsBinary stop ls e e.precedence
  unary : 7 ≤ e.precedence → ReadsUnary stop ls e
  chain : 8 ≤ e.precedence → ReadsChain stop ls e

theorem NoArrow.ends (h : NoArrow ls) {rest : List Lexeme} (hr : Ends rest) :
    Parser.arrowParams (ls ++ rest) = none := by
  refine h rest fun he => ?_
  obtain ⟨l, hl, ht⟩ := Option.map_eq_some_iff.1 he
  have := hr l hl
  rw [ht] at this
  cases this

theorem Recognized.ofExpr (h : ReadsExpr stop ls e) (hp : e.precedence = 0) :
    Recognized stop ls e where
  expr := h
  binary _ := by omega
  unary _ := by omega
  chain _ := by omega

theorem ReadsBinary.reads (h : ReadsBinary stop ls e e.precedence) (ha : NoArrow ls)
    (hp : 1 ≤ e.precedence ∧ e.precedence ≤ 6) : Recognized stop ls e where
  expr := h.expr hp.1 fun _ hr => ha.ends hr
  binary _ := h
  unary _ := by omega
  chain _ := by omega

theorem ReadsUnary.reads (h : ReadsUnary stop ls e) (hw : 0 < weightOf ls) (ha : NoArrow ls)
    (hp : e.precedence = 7) : Recognized stop ls e where
  expr := (h.binary hw 7).expr (by omega) fun _ hr => ha.ends hr
  binary _ := h.binary hw _
  unary _ := h
  chain _ := by omega

theorem ReadsChain.reads (h : ReadsChain stop ls e) (ha : NoArrow ls) : Recognized stop ls e := by
  have hw : 0 < weightOf ls := by
    obtain ⟨-, links, hl, -⟩ := h
    omega
  exact ⟨(h.unary.binary hw 8).expr (by omega) fun _ hr => ha.ends hr,
    fun _ => h.unary.binary hw _, fun _ => h.unary, fun _ => h⟩

/-! ## Operands -/

/-- An operand is read from its parentheses, or it binds tightly enough. -/
theorem reads_enclose {needed : Nat}
    (h : ∀ ls : List Lexeme, ls.map Lexeme.token = e.tokens → Recognized stop ls e)
    (hl : ls.map Lexeme.token = enclose needed e.precedence e.tokens) :
    ReadsChain stop ls e ∨ needed ≤ e.precedence ∧ Recognized stop ls e := by
  unfold enclose at hl
  split at hl
  case isTrue =>
    obtain ⟨o, ls, rfl, ho, hl⟩ := List.map_eq_cons_iff.1 hl
    obtain ⟨as, bs, rfl, ha, hb⟩ := map_append hl
    obtain ⟨c, rfl, hc⟩ := List.map_eq_singleton_iff.1 hb
    refine .inl ((reads_parentheses ho hc (h as ha).expr).chain ?_ ?_)
    · simp [ho, Token.weight]
    · simp [ho, unaryOp?]
  case isFalse hp => exact .inr ⟨by omega, h ls hl⟩

theorem reads_object (h : ∀ ls : List Lexeme, ls.map Lexeme.token = e.tokens → Recognized stop ls e)
    (hl : ls.map Lexeme.token = enclose 8 e.precedence e.tokens) : ReadsChain stop ls e := by
  rcases reads_enclose h hl with hc | ⟨hp, hr⟩
  · exact hc
  · exact hr.chain hp

theorem reads_operand {p : Nat} (hp : 1 ≤ p)
    (h : ∀ ls : List Lexeme, ls.map Lexeme.token = e.tokens → Recognized stop ls e)
    (hl : ls.map Lexeme.token = enclose p e.precedence e.tokens) : ReadsBinary stop ls e p := by
  rcases reads_enclose h hl with hc | ⟨hp', hr⟩
  · obtain ⟨-, links, hw, -⟩ := id hc
    exact hc.unary.binary (by omega) p
  · exact (hr.binary (by omega)).mono hp'

/-! ## Chains of accesses -/

namespace ReadsChain

variable {o : Expr}

theorem extend {as bs : List Lexeme} (h : ReadsChain stop as o)
    (step : ∀ (fuel : Nat) (rest : List Lexeme) (o' : Expr), 8 * weightOf bs ≤ fuel + 1 →
      o'.bare = o.bare → ∃ e', postfixTail stop (fuel + 1) o' (bs ++ rest) =
        postfixTail stop fuel e' rest ∧ e'.bare = e.bare)
    (hb : 0 < weightOf bs) : ReadsChain stop (as ++ bs) e := by
  obtain ⟨ho, links, hl, h⟩ := h
  have first : (as ++ bs).head? = as.head? := by
    rcases as with _ | ⟨a, as⟩
    · cases hl
    · rfl
  refine ⟨by rwa [first], links + 1, by rw [weightOf_append]; omega, fun fuel rest hf => ?_⟩
  rw [weightOf_append] at hf
  obtain ⟨o', ho', hbare⟩ := h (fuel + 1) (bs ++ rest) (by omega)
  obtain ⟨e', he', hbare'⟩ := step fuel rest o' (by omega) hbare
  refine ⟨e', ?_, hbare'⟩
  rw [List.append_assoc, show fuel + (links + 1) + 1 = fuel + 1 + links + 1 by omega, ho', he']

theorem member {as : List Lexeme} (h : ReadsChain stop as o) {d n : Lexeme} {p : String}
    {optional : Bool} (hd : d.token = if optional then .questionDot else .dot)
    (hn : n.token = .ident p) (s : Span) : ReadsChain stop (as ++ [d, n]) (.member s o p optional) := by
  obtain ⟨t, span⟩ := d
  obtain ⟨u, span'⟩ := n
  cases hd
  cases hn
  refine h.extend (fun fuel rest o' _ hb => ⟨.member (o'.span.union span') o' p optional, ?_, ?_⟩) ?_
  · rw [postfixTail]
    cases optional <;> rfl
  · simp [Expr.bare, hb]
  · cases optional <;> simp [Token.weight]

theorem index {as is : List Lexeme} {i : Expr} {optional : Bool} {d : List Lexeme} {b c : Lexeme}
    (h : ReadsChain stop as o) (hi : ReadsExpr stop is i)
    (hd : d.map Lexeme.token = if optional then [.questionDot] else []) (hb : b.token = .openBracket)
    (hc : c.token = .closeBracket) (s : Span) :
    ReadsChain stop (as ++ (d ++ b :: (is ++ [c]))) (.index s o i optional) := by
  obtain ⟨t, span⟩ := b
  cases hb
  refine h.extend (fun fuel rest o' hf hbare => ?_) (by simp [Token.weight])
  simp only [weightOf_append, weightOf_cons, weightOf_nil, hc, Token.weight] at hf
  obtain ⟨fuel, rfl⟩ : ∃ n, fuel = n + 1 := ⟨fuel - 1, by omega⟩
  obtain ⟨i', hi', hbi⟩ := hi fuel (c :: rest) (by omega) (ends_cons (by rw [hc]; rfl) rest)
  have inside : indexOn stop (fuel + 1) o' optional (⟨.openBracket, span⟩ :: (is ++ [c] ++ rest)) =
      .ok (.index (o'.span.union c.span) o' i' optional, rest) := by
    rw [List.append_assoc, indexOn, bind_run (Parser.expect_eq (t := .openBracket) stop rfl),
      List.singleton_append, bind_run hi', bind_run (Parser.expect_eq stop hc)]
    rfl
  refine ⟨.index (o'.span.union c.span) o' i' optional, ?_, by simp [Expr.bare, hbare, hbi]⟩
  rw [postfixTail]
  cases optional with
  | false =>
    obtain rfl : d = [] := by simpa using hd
    exact bind_run inside
  | true =>
    obtain ⟨⟨t, span'⟩, rfl, hq⟩ := List.map_eq_singleton_iff.1 hd
    cases hq
    exact bind_run inside

end ReadsChain

/-! ## Lists -/

/-- The tokens are read as expressions between commas. -/
def ReadsList (stop : Nat) (ls : List Lexeme) (es : List Expr) : Prop :=
  ∀ (fuel : Nat) (c : Lexeme) (rest : List Lexeme),
    c.token = .closeParen ∨ c.token = .closeBracket → 8 * (weightOf ls + 1) ≤ fuel →
      ∃ es', exprList stop fuel c.token (ls ++ c :: rest) = .ok ((es', c.span), rest) ∧
        bareAll es' = bareAll es

theorem ReadsChain.call {o : Expr} {as bs : List Lexeme} {args : List Expr} {b c : Lexeme}
    (h : ReadsChain stop as o) (ha : ReadsList stop bs args) (hb : b.token = .openParen)
    (hc : c.token = .closeParen) (s : Span) :
    ReadsChain stop (as ++ b :: (bs ++ [c])) (.call s o args) := by
  obtain ⟨t, span⟩ := b
  cases hb
  refine h.extend (fun fuel rest o' hf hbare => ?_) (by simp [Token.weight])
  simp only [weightOf_append, weightOf_cons, weightOf_nil, hc, Token.weight] at hf
  obtain ⟨fuel, rfl⟩ : ∃ n, fuel = n + 1 := ⟨fuel - 1, by omega⟩
  obtain ⟨args', ha', hba⟩ := ha fuel c rest (.inl hc) (by omega)
  have inside : callOn stop (fuel + 1) o' (⟨.openParen, span⟩ :: (bs ++ [c] ++ rest)) =
      .ok (.call (o'.span.union c.span) o' args', rest) := by
    rw [hc] at ha'
    rw [List.append_assoc, callOn, bind_run (Parser.expect_eq (t := .openParen) stop rfl),
      List.singleton_append, bind_run ha']
    rfl
  refine ⟨.call (o'.span.union c.span) o' args', ?_, by simp [Expr.bare, hbare, hba]⟩
  rw [postfixTail]
  exact bind_run inside

/-- The first token of an expression is none of those that may stand in its place. -/
theorem head_ne {ts : List Token} {t : Token} (hl : ls.map Lexeme.token = ts) (ho : Opens ts)
    (ht : t.opens = false) (rest : List Lexeme) : ∀ l ∈ (ls ++ rest).head?, l.token ≠ t := by
  obtain ⟨u, us, rfl, hu⟩ := ho
  obtain ⟨l, ls, rfl, rfl, -⟩ := List.map_eq_cons_iff.1 hl
  rintro _ ⟨⟩ rfl
  rw [hu] at ht
  cases ht

theorem readsList_nil (stop : Nat) : ReadsList stop [] [] := by
  intro fuel c rest _ hf
  obtain ⟨fuel, rfl⟩ : ∃ n, fuel = n + 1 := ⟨fuel - 1, by omega⟩
  refine ⟨[], ?_, rfl⟩
  rw [exprList, List.nil_append, bind_run (Parser.eat_eq rfl)]
  rfl

theorem readsList_single (h : ReadsExpr stop ls e) (hl : ls.map Lexeme.token = e.tokens)
    (ho : Opens e.tokens) : ReadsList stop ls [e] := by
  intro fuel c rest hc hf
  obtain ⟨fuel, rfl⟩ : ∃ n, fuel = n + 1 := ⟨fuel - 1, by omega⟩
  have closing : c.token.ends = true ∧ c.token.opens = false ∧ c.token ≠ .comma := by
    rcases hc with hc | hc <;> rw [hc] <;> decide
  obtain ⟨e', he, hb⟩ := h fuel (c :: rest) (by omega) (ends_cons closing.1 rest)
  refine ⟨[e'], ?_, by simp [bareAll, hb]⟩
  rw [exprList, bind_run (Parser.eat_ne (head_ne hl ho closing.2.1 _))]
  dsimp only
  rw [bind_run he, bind_run (Parser.eat_ne (by simpa using closing.2.2))]
  dsimp only
  rw [bind_run (Parser.expect_eq stop rfl)]
  rfl

theorem readsList_cons {es : List Expr} {k : Lexeme} {ms : List Lexeme} (h : ReadsExpr stop ls e)
    (hl : ls.map Lexeme.token = e.tokens) (ho : Opens e.tokens) (hk : k.token = .comma)
    (hm : ReadsList stop ms es) : ReadsList stop (ls ++ k :: ms) (e :: es) := by
  intro fuel c rest hc hf
  obtain ⟨fuel, rfl⟩ : ∃ n, fuel = n + 1 := ⟨fuel - 1, by omega⟩
  simp only [weightOf_append, weightOf_cons, hk, Token.weight] at hf
  have closing : c.token.opens = false := by
    rcases hc with hc | hc <;> rw [hc] <;> rfl
  obtain ⟨e', he, hb⟩ := h fuel (k :: (ms ++ c :: rest)) (by omega) (ends_cons (by rw [hk]; rfl) _)
  obtain ⟨es', hes, hbs⟩ := hm fuel c rest hc (by omega)
  refine ⟨e' :: es', ?_, by simp [bareAll, hb, hbs]⟩
  rw [List.append_assoc, List.cons_append, exprList,
    bind_run (Parser.eat_ne (head_ne hl ho closing _))]
  dsimp only
  rw [bind_run he, bind_run (Parser.eat_eq hk)]
  dsimp only
  rw [bind_run hes]
  rfl

theorem reads_array {b c : Lexeme} {items : List Expr} (hb : b.token = .openBracket)
    (hc : c.token = .closeBracket) (h : ReadsList stop ls items) (s : Span) :
    ReadsPrimary stop (b :: (ls ++ [c])) (.array s items) := by
  intro fuel rest hf
  simp only [weightOf_cons, weightOf_append, weightOf_nil, hb, hc, Token.weight] at hf
  obtain ⟨fuel, rfl⟩ : ∃ n, fuel = n + 1 := ⟨fuel - 1, by omega⟩
  obtain ⟨items', hi, hbare⟩ := h fuel c rest (.inr hc) (by omega)
  rw [hc] at hi
  obtain ⟨_, span⟩ := b
  cases hb
  refine ⟨.array (span.union c.span) items', ?_, by simp [Expr.bare, hbare]⟩
  rw [primary, List.cons_append, List.append_assoc, List.singleton_append,
    bind_run (Parser.next_cons ..)]
  exact bind_run hi

/-! ## Entries -/

theorem entryKey_keyToken {l : Lexeme} {k : String} (h : l.token = keyToken k) :
    entryKey l = .ok k := by
  unfold keyToken at h
  unfold entryKey
  split at h
  · rw [h]
  · rw [h]
    exact stringText_literal l.span k

theorem opens_keyToken (k : String) : (keyToken k).opens = true := by
  unfold keyToken
  split <;> rfl

/-- The tokens are read as the entries of an object. -/
def ReadsEntries (stop : Nat) (ls : List Lexeme) (entries : List (String × Expr)) : Prop :=
  ∀ (fuel : Nat) (c : Lexeme) (rest : List Lexeme),
    c.token = .closeBrace → 8 * (weightOf ls + 1) ≤ fuel →
      ∃ entries', objectEntries stop fuel (ls ++ c :: rest) = .ok ((entries', c.span), rest) ∧
        bareEntries entries' = bareEntries entries

theorem readsEntries_nil (stop : Nat) : ReadsEntries stop [] [] := by
  intro fuel c rest hc hf
  obtain ⟨fuel, rfl⟩ : ∃ n, fuel = n + 1 := ⟨fuel - 1, by omega⟩
  refine ⟨[], ?_, rfl⟩
  rw [objectEntries, List.nil_append, bind_run (Parser.eat_eq hc)]
  rfl

/-- A key and a colon are taken off the front of the entries. -/
theorem objectEntries_entry {key colon : Lexeme} {k : String} (hk : key.token = keyToken k)
    (hc : colon.token = .colon) {fuel : Nat} {ts rest : List Lexeme} {e' : Expr}
    (he : expr stop fuel ts = .ok (e', rest)) :
    objectEntries stop (fuel + 1) (key :: colon :: ts) = (do
      match ← Parser.eat .comma with
      | some _ =>
        let (others, span) ← objectEntries stop fuel
        return ((k, e') :: others, span)
      | none => return ([(k, e')], ← Parser.expect stop .closeBrace) : Parser _) rest := by
  have open_ne : ∀ l ∈ (key :: colon :: ts).head?, l.token ≠ .closeBrace := by
    rintro _ ⟨⟩ h
    have := opens_keyToken k
    rw [← hk, h] at this
    cases this
  have lifted (ts : List Lexeme) : (liftM (entryKey key) : Parser String) ts = .ok (k, ts) := by
    rw [entryKey_keyToken hk]
    rfl
  rw [objectEntries, bind_run (Parser.eat_ne open_ne)]
  dsimp only
  rw [bind_run (Parser.next_cons ..), bind_run (lifted _), bind_run (Parser.eat_eq hc)]
  dsimp only
  exact bind_run he

theorem readsEntries_single {key colon : Lexeme} {k : String} (hk : key.token = keyToken k)
    (hc : colon.token = .colon) (h : ReadsExpr stop ls e) :
    ReadsEntries stop (key :: colon :: ls) [(k, e)] := by
  intro fuel c rest hclose hf
  obtain ⟨fuel, rfl⟩ : ∃ n, fuel = n + 1 := ⟨fuel - 1, by omega⟩
  simp only [weightOf_cons] at hf
  obtain ⟨e', he, hb⟩ := h fuel (c :: rest) (by omega) (ends_cons (by rw [hclose]; rfl) rest)
  refine ⟨[(k, e')], ?_, by simp [bareEntries, hb]⟩
  rw [List.cons_append, List.cons_append, objectEntries_entry hk hc he,
    bind_run (Parser.eat_ne (by simp [hclose]))]
  dsimp only
  rw [bind_run (Parser.expect_eq stop hclose)]
  rfl

theorem readsEntries_cons {key colon comma : Lexeme} {k : String} {ms : List Lexeme}
    {entries : List (String × Expr)} (hk : key.token = keyToken k) (hc : colon.token = .colon)
    (h : ReadsExpr stop ls e) (hm : comma.token = .comma) (hes : ReadsEntries stop ms entries) :
    ReadsEntries stop (key :: colon :: (ls ++ comma :: ms)) ((k, e) :: entries) := by
  intro fuel c rest hclose hf
  obtain ⟨fuel, rfl⟩ : ∃ n, fuel = n + 1 := ⟨fuel - 1, by omega⟩
  simp only [weightOf_cons, weightOf_append, hm, Token.weight] at hf
  obtain ⟨e', he, hb⟩ := h fuel (comma :: (ms ++ c :: rest)) (by omega)
    (ends_cons (by rw [hm]; rfl) _)
  obtain ⟨entries', hentries, hbs⟩ := hes fuel c rest hclose (by omega)
  refine ⟨(k, e') :: entries', ?_, by simp [bareEntries, hb, hbs]⟩
  rw [List.cons_append, List.cons_append, List.append_assoc, List.cons_append,
    objectEntries_entry hk hc he, bind_run (Parser.eat_eq hm)]
  dsimp only
  rw [bind_run hentries]
  rfl

theorem reads_braces {b c : Lexeme} {entries : List (String × Expr)} (hb : b.token = .openBrace)
    (hc : c.token = .closeBrace) (h : ReadsEntries stop ls entries) (s : Span) :
    ReadsPrimary stop (b :: (ls ++ [c])) (.object s entries) := by
  intro fuel rest hf
  simp only [weightOf_cons, weightOf_append, weightOf_nil, hb, hc, Token.weight] at hf
  obtain ⟨fuel, rfl⟩ : ∃ n, fuel = n + 1 := ⟨fuel - 1, by omega⟩
  obtain ⟨entries', he, hbare⟩ := h fuel c rest hc (by omega)
  obtain ⟨_, span⟩ := b
  cases hb
  refine ⟨.object (span.union c.span) entries', ?_, by simp [Expr.bare, hbare]⟩
  rw [primary, List.cons_append, List.append_assoc, List.singleton_append,
    bind_run (Parser.next_cons ..)]
  exact bind_run he

/-! ## Operators -/

theorem unaryOp?_token (op : UnaryOp) : unaryOp? op.token = some op := by
  cases op <;> rfl

theorem binaryOp?_token (op : BinaryOp) : binaryOp? op.token = some op := by
  cases op <;> rfl

theorem reads_unary {l : Lexeme} {op : UnaryOp} (hl : l.token = op.token) (h : ReadsUnary stop ls e)
    (s : Span) : ReadsUnary stop (l :: ls) (.unary s op e) := by
  intro fuel rest hf hr
  have := l.token.weight_pos
  rw [weightOf_cons] at hf
  obtain ⟨fuel, rfl⟩ : ∃ n, fuel = n + 1 := ⟨fuel - 1, by omega⟩
  obtain ⟨e', he, hb⟩ := h fuel rest (by omega) hr
  refine ⟨.unary (l.span.union e'.span) op e', ?_, by simp [Expr.bare, hb]⟩
  rw [List.cons_append, unaryExpr]
  simp only [hl, unaryOp?_token, he]
  rfl

theorem reads_binary {op : BinaryOp} {l r : Expr} {as bs : List Lexeme} {o : Lexeme}
    (ho : o.token = op.token) (hl : ReadsBinary stop as l op.precedence)
    (hr : ReadsBinary stop bs r (op.precedence + 1)) (s : Span) :
    ReadsBinary stop (as ++ o :: bs) (.binary s op l r) op.precedence := by
  obtain ⟨spine, hs, hl⟩ := hl
  obtain ⟨spine', hs', hr⟩ := hr
  have one : o.token.weight = 1 := by
    rw [ho]
    cases op <;> rfl
  refine ⟨spine + 1, by simp [one]; omega, fun fuel least rest hf hleast hrest => ?_⟩
  simp only [weightOf_append, weightOf_cons, one] at hf
  have joint : Yields op.precedence (o :: (bs ++ rest)) := by
    refine ⟨?_, ?_⟩
    · rintro _ ⟨⟩
      rw [ho]
      cases op <;> rfl
    · rintro _ ⟨⟩ op' hop
      rw [ho, binaryOp?_token] at hop
      cases hop
      exact Nat.le_refl _
  obtain ⟨l', hl', hbl⟩ := hl (fuel + 1) least (o :: (bs ++ rest)) (by omega) hleast joint
  obtain ⟨fuel', rfl⟩ : ∃ n, fuel = n + spine' + 1 := ⟨fuel - spine' - 1, by omega⟩
  obtain ⟨r', hr', hbr⟩ := hr fuel' (op.precedence + 1) rest (by omega) (Nat.le_refl _)
    ⟨hrest.1, fun l hl op' hop => Nat.le_succ_of_le (hrest.2 l hl op' hop)⟩
  rw [binaryTail_yields hrest (Nat.lt_succ_self _)] at hr'
  refine ⟨.binary (l'.span.union r'.span) op l' r', ?_, by simp [Expr.bare, hbl, hbr]⟩
  rw [List.append_assoc, List.cons_append,
    show fuel' + spine' + 1 + (spine + 1) + 1 = fuel' + spine' + 1 + 1 + spine + 1 by omega, hl',
    binaryTail]
  simp only [ho, binaryOp?_token, if_neg (Nat.not_lt.2 hleast), hr']
  rfl

theorem reads_conditional {c t n : Expr} {as bs cs : List Lexeme} {q k : Lexeme}
    (hc : ReadsBinary stop as c 1) (hq : q.token = .question) (ht : ReadsExpr stop bs t)
    (hk : k.token = .colon) (hn : ReadsExpr stop cs n) (ha : NoArrow (as ++ q :: (bs ++ k :: cs)))
    (s : Span) : ReadsExpr stop (as ++ q :: (bs ++ k :: cs)) (.conditional s c t n) := by
  obtain ⟨spine, hs, hc⟩ := hc
  intro fuel rest hf hr
  have noArrow := ha.ends hr
  simp only [weightOf_append, weightOf_cons, hq, hk, Token.weight] at hf
  obtain ⟨fuel, rfl⟩ : ∃ n, fuel = n + spine + 1 + 1 + 1 := ⟨fuel - spine - 3, by omega⟩
  have joint : ∀ p, Yields p (q :: (bs ++ k :: (cs ++ rest))) := by
    refine fun p => ⟨?_, ?_⟩
    · rintro _ ⟨⟩
      rw [hq]
      rfl
    · rintro _ ⟨⟩ op hop
      rw [hq] at hop
      cases hop
  obtain ⟨c', hc', hbc⟩ := hc fuel 1 (q :: (bs ++ k :: (cs ++ rest))) (by omega) (Nat.le_refl _)
    (joint 1)
  rw [binaryTail_yields (joint 0) (Nat.lt_succ_self _)] at hc'
  obtain ⟨t', ht', hbt⟩ := ht (fuel + spine + 1) (k :: (cs ++ rest)) (by omega)
    (ends_cons (by rw [hk]; rfl) _)
  obtain ⟨n', hn', hbn⟩ := hn (fuel + spine + 1) rest (by omega) hr
  refine ⟨.conditional (c'.span.union n'.span) c' t' n', ?_, by simp [Expr.bare, hbc, hbt, hbn]⟩
  rw [Grammar.expr]
  simp only [noArrow]
  simp only [List.append_assoc, List.cons_append]
  rw [conditionalExpr, bind_run hc', bind_run (Parser.eat_eq hq)]
  dsimp only
  rw [bind_run ht', bind_run (Parser.expect_eq stop hk), bind_run hn']
  rfl

/-! ## Arrow functions -/

theorem paramsTail_params {c a : Lexeme} (hc : c.token = .closeParen) (ha : a.token = .arrow)
    (rest : List Lexeme) : ∀ (params : List String) {ls : List Lexeme}, params ≠ [] →
      ls.map Lexeme.token = [.comma].intercalate (params.map fun p => [.ident p]) →
        Parser.paramsTail (ls ++ c :: a :: rest) = some (params, rest)
  | [], _, hne, _ => absurd rfl hne
  | [p], ls, _, hl => by
    obtain ⟨⟨t, s⟩, rfl, ht⟩ := List.map_eq_singleton_iff.1 (by simpa using hl)
    obtain ⟨_, s'⟩ := c
    obtain ⟨_, s''⟩ := a
    cases ht
    cases hc
    cases ha
    rfl
  | p :: p' :: params, ls, _, hl => by
    rw [List.map_cons, List.map_cons, List.intercalate_cons_cons] at hl
    obtain ⟨⟨_, s⟩, ls, rfl, ht, hr⟩ := List.map_eq_cons_iff.1 hl
    obtain ⟨⟨_, s'⟩, ls, rfl, hu, hr⟩ := List.map_eq_cons_iff.1 hr
    have others := paramsTail_params hc ha rest (p' :: params) (by simp) hr
    cases ht
    cases hu
    simp only [List.cons_append]
    rw [Parser.paramsTail, others]
    rfl

theorem arrowParams_params {o c a : Lexeme} {params : List String} (ho : o.token = .openParen)
    (hl : ls.map Lexeme.token = [.comma].intercalate (params.map fun p => [.ident p]))
    (hc : c.token = .closeParen) (ha : a.token = .arrow) (rest : List Lexeme) :
    Parser.arrowParams (o :: (ls ++ c :: a :: rest)) = some (params, rest) := by
  rcases params with _ | ⟨p, params⟩
  · obtain rfl : ls = [] := by simpa using hl
    obtain ⟨_, s⟩ := o
    obtain ⟨_, s'⟩ := c
    obtain ⟨_, s''⟩ := a
    cases ho
    cases hc
    cases ha
    rfl
  · have tail := paramsTail_params hc ha rest (p :: params) (by simp) hl
    have first : ∃ l ls', ls = l :: ls' ∧ l.token = .ident p := by
      cases params with
      | nil =>
        obtain ⟨l, rfl, hp⟩ := List.map_eq_singleton_iff.1 (by simpa using hl)
        exact ⟨l, [], rfl, hp⟩
      | cons p' params =>
        rw [List.map_cons, List.map_cons, List.intercalate_cons_cons] at hl
        obtain ⟨l, ls, rfl, hp, -⟩ := List.map_eq_cons_iff.1 hl
        exact ⟨l, ls, rfl, hp⟩
    obtain ⟨l, ls, rfl, hp⟩ := first
    rw [List.cons_append] at tail ⊢
    rw [Parser.arrowParams_paren ho (by rw [hp]; rfl), tail]

theorem reads_arrow {o c a : Lexeme} {params : List String} {bs : List Lexeme} {body : Expr}
    (ho : o.token = .openParen)
    (hl : ls.map Lexeme.token = [.comma].intercalate (params.map fun p => [.ident p]))
    (hc : c.token = .closeParen) (ha : a.token = .arrow) (hb : ReadsExpr stop bs body)
    (hne : ∀ l ∈ bs.head?, l.token ≠ .openBrace) (hw : 0 < weightOf bs) (s : Span) :
    ReadsExpr stop (o :: (ls ++ c :: a :: bs)) (.arrow s params body) := by
  intro fuel rest hf hr
  simp only [weightOf_append, weightOf_cons] at hf
  obtain ⟨fuel, rfl⟩ : ∃ n, fuel = n + 1 := ⟨fuel - 1, by omega⟩
  have := o.token.weight_pos
  obtain ⟨body', hbody, hbare⟩ := hb fuel rest (by omega) hr
  refine ⟨.arrow (o.span.union body'.span) params body', ?_, by simp [Expr.bare, hbare]⟩
  have params := arrowParams_params ho hl hc ha (bs ++ rest)
  rw [Grammar.expr]
  simp only [List.cons_append, List.append_assoc, params]
  rcases bs with _ | ⟨⟨t, sp⟩, bs⟩
  · cases hw
  · have brace : t ≠ .openBrace := hne _ rfl
    split
    · rename_i heq
      simp only [List.cons_append, List.cons.injEq, Lexeme.mk.injEq] at heq
      exact absurd heq.1.1 brace
    · rw [hbody]
      rfl

end Grammar

theorem Grammar.head_enclose {P : Token → Prop} {ts us : List Token} (ho : Opens ts)
    (hp : P .openParen) (needed actual : Nat) (h : needed ≤ actual → ∀ t ∈ ts.head?, P t) :
    ∀ t ∈ (enclose needed actual ts ++ us).head?, P t := by
  unfold enclose
  split
  case isTrue =>
    rintro _ ⟨⟩
    exact hp
  case isFalse hle =>
    obtain ⟨t, ts, rfl, -⟩ := ho
    exact h (by omega)

/-- The first token of an expression that does not begin with an object literal is no brace. -/
theorem Expr.Written.head_ne_brace : ∀ {e : Expr}, e.Written → e.opensWithObject = false →
    ∀ t ∈ e.tokens.head?, t ≠ .openBrace
  | .literal _ v, _, _ => by
    rw [Expr.tokens]
    rintro _ ⟨⟩
    unfold Value.token stringToken
    split
    · simp
    · split <;> simp
  | .template .., _, _ | .name .., _, _ | .self _, _, _ | .array .., _, _ | .arrow .., _, _ => by
    rw [Expr.tokens]
    rintro _ ⟨⟩
    simp
  | .object .., _, ho => by cases ho
  | .unary _ op e, _, _ => by
    rw [Expr.tokens]
    rintro _ ⟨⟩
    cases op <;> simp [UnaryOp.token]
  | .member _ o _ _, h, ho => by
    rw [Expr.Written] at h
    rw [Expr.tokens]
    refine head_enclose h.2.opens (by simp) _ _ fun hp => h.2.head_ne_brace ?_
    simpa [Expr.opensWithObject, hp] using ho
  | .index _ o _ _, h, ho | .call _ o _, h, ho | .binary _ _ o _, h, ho
  | .conditional _ o _ _, h, ho => by
    rw [Expr.Written] at h
    rw [Expr.tokens]
    refine head_enclose h.1.opens (by simp) _ _ fun hp => h.1.head_ne_brace ?_
    simpa [Expr.opensWithObject, hp] using ho
  | .root .., h, _ | .method .., h, _ | .function .., h, _ => by
    rw [Expr.Written] at h
    exact h.elim

namespace Grammar

/-! ## Literals and names -/

theorem wordExpr_name {n : String} (h : n ∉ reservedWords) (s : Span) :
    wordExpr s n = .name s n := by
  unfold wordExpr
  split <;> simp_all [reservedWords]

theorem reads_word {l : Lexeme} {n : String} (hl : l.token = .ident n) (hn : n ≠ "typeof")
    (he : ∀ s, (wordExpr s n).bare = e.bare) : ReadsChain stop [l] e := by
  obtain ⟨_, s⟩ := l
  cases hl
  have primary : ReadsPrimary stop [⟨.ident n, s⟩] e := by
    intro fuel rest hf
    obtain ⟨fuel, rfl⟩ : ∃ n, fuel = n + 1 := ⟨fuel - 1, by simp [Token.weight] at hf; omega⟩
    refine ⟨wordExpr s n, ?_, he s⟩
    rw [primary]
    rfl
  refine primary.chain (by simp [Token.weight]) ?_
  rintro _ ⟨⟩
  unfold unaryOp?
  split <;> simp_all

theorem reads_number {l : Lexeme} {text : List Char} {v : Value} (hl : l.token = .number text)
    (hv : numeral? text = some v) (s : Span) : ReadsPrimary stop [l] (.literal s v) := by
  intro fuel rest hf
  obtain ⟨fuel, rfl⟩ : ∃ n, fuel = n + 1 := ⟨fuel - 1, by simp [hl, Token.weight] at hf; omega⟩
  obtain ⟨t, s'⟩ := l
  cases hl
  refine ⟨.literal s' v, ?_, by simp [Expr.bare]⟩
  rw [primary, List.cons_append, bind_run (Parser.next_cons ..)]
  simp only [hv]
  rfl

theorem reads_string {l : Lexeme} {t : String} (hl : l.token = stringToken t) (s : Span) :
    ReadsPrimary stop [l] (.literal s (.text t)) := by
  intro fuel rest hf
  obtain ⟨fuel, rfl⟩ : ∃ n, fuel = n + 1 :=
    ⟨fuel - 1, by simp [hl, stringToken, Token.weight] at hf; omega⟩
  obtain ⟨tok, s'⟩ := l
  cases hl
  refine ⟨.literal s' (.text t), ?_, by simp [Expr.bare]⟩
  have lifted : (liftM (stringText s' (t.toList.flatMap stringLiteralChar)) : Parser String) rest =
      .ok (t, rest) := by
    rw [stringText_literal]
    rfl
  rw [primary, List.cons_append, bind_run (Parser.next_cons ..)]
  exact bind_run lifted

end Grammar

end LiveTemplate
