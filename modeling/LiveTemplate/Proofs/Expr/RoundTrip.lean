/-
Printing an expression and reading it again.
-/
import LiveTemplate.Proofs.Expr.Reading

namespace LiveTemplate

open Text Grammar Delimiter

namespace Grammar

/-! ## Template strings -/

theorem templateParts_escape {pos : Nat} {rest after : List Char} {c : Char}
    (h : escape pos rest = .ok (c, after)) (fuel : Nat) :
    ∃ pos', templateParts (fuel + 1) pos ('\\' :: rest) =
      (templateParts fuel pos' after).map (pushChar c) := by
  refine ⟨pos + 1 + byteLength (rest.take (rest.length - after.length)), ?_⟩
  rw [templateParts, h]
  rfl

theorem templateParts_plain {c : Char} (hc : c ≠ '\\') {rest : List Char}
    (hr : c = '$' → rest.head? ≠ some '{') (fuel pos : Nat) :
    templateParts (fuel + 1) pos (c :: rest) =
      (templateParts fuel (pos + c.utf8Size) rest).map (pushChar c) := by
  rw [templateParts]
  · rfl
  all_goals grind

/-- The text of a template string is read back, unless a dollar at its end goes with a brace. -/
theorem templateParts_templateText (s rest : List Char) (hr : rest.head? ≠ some '{') (fuel pos : Nat)
    (hf : (templateText s).length ≤ fuel) :
    ∃ fuel' pos', fuel ≤ fuel' + (templateText s).length ∧
      templateParts fuel pos (templateText s ++ rest) =
        (templateParts fuel' pos' rest).map fun parts => s.foldr pushChar parts := by
  fun_induction templateText s generalizing fuel pos with
  | case1 =>
    refine ⟨fuel, pos, by simp, ?_⟩
    show templateParts fuel pos rest = _
    cases templateParts fuel pos rest <;> rfl
  | case2 s ih =>
    obtain ⟨fuel, rfl⟩ : ∃ n, fuel = n + 1 + 1 := ⟨fuel - 2, by simp at hf; omega⟩
    simp only [List.length_cons] at hf
    have dollar : escape pos ('$' :: '{' :: (templateText s ++ rest)) =
        .ok ('$', '{' :: (templateText s ++ rest)) := rfl
    obtain ⟨pos', h₁⟩ := templateParts_escape dollar (fuel + 1)
    have h₂ := templateParts_plain (show '{' ≠ '\\' by decide)
      (show '{' = '$' → (templateText s ++ rest).head? ≠ some '{' from fun he => absurd he (by decide))
      fuel pos'
    obtain ⟨fuel', pos'', hf', h₃⟩ := ih fuel (pos' + '{'.utf8Size) (by omega)
    refine ⟨fuel', pos'', by simp; omega, ?_⟩
    simp only [List.cons_append]
    rw [h₁, h₂, h₃]
    cases templateParts fuel' pos'' rest <;> rfl
  | case3 c s hs hc ih =>
    obtain ⟨fuel, rfl⟩ : ∃ n, fuel = n + 1 := ⟨fuel - 1, by simp at hf; omega⟩
    simp only [List.length_cons] at hf
    have guarded : escape pos (c :: (templateText s ++ rest)) = .ok (c, templateText s ++ rest) := by
      rcases Bool.or_eq_true_iff.1 hc with h | h <;> rw [eq_of_beq h] <;> rfl
    obtain ⟨pos', h₁⟩ := templateParts_escape guarded fuel
    obtain ⟨fuel', pos'', hf', h₂⟩ := ih fuel pos' (by omega)
    refine ⟨fuel', pos'', by simp; omega, ?_⟩
    simp only [List.cons_append]
    rw [h₁, h₂]
    cases templateParts fuel' pos'' rest <;> rfl
  | case4 c s hs hc ih =>
    obtain ⟨fuel, rfl⟩ : ∃ n, fuel = n + 1 := ⟨fuel - 1, by simp at hf; omega⟩
    simp only [List.length_cons] at hf
    simp only [Bool.or_eq_true, beq_iff_eq, not_or] at hc
    have unguarded : c = '$' → (templateText s ++ rest).head? ≠ some '{' := by
      rintro rfl hb
      rcases head_templateText hb with hb | ⟨-, hb⟩
      · rcases s with _ | ⟨b, s⟩
        · simp at hb
        · exact hs s rfl (by simpa using hb)
      · exact hr hb
    obtain ⟨fuel', pos', hf', h₂⟩ := ih fuel (pos + c.utf8Size) (by omega)
    refine ⟨fuel', pos', by simp; omega, ?_⟩
    rw [List.cons_append, templateParts_plain hc.1 unguarded, h₂]
    cases templateParts fuel' pos' rest <;> rfl

theorem foldr_pushChar {parts : List TemplatePart} (h : opensWithText parts = false) :
    ∀ s : List Char, s ≠ [] → s.foldr pushChar parts = .text (String.ofList s) :: parts
  | [], hne => absurd rfl hne
  | [c], _ => by
    rcases parts with _ | ⟨_ | _, parts⟩
    · rfl
    · cases h
    · rfl
  | c :: d :: s, _ => by
    rw [List.foldr_cons, foldr_pushChar h (d :: s) (by simp)]
    simp [pushChar]

theorem opensWithText_bareParts (parts : List TemplatePart) :
    opensWithText (bareParts parts) = opensWithText parts := by
  rcases parts with _ | ⟨_ | _, parts⟩ <;> simp [bareParts, opensWithText]

end Grammar

/-- The printed form of an expression whose tokens are read is read as a whole. -/
theorem Expr.Written.parseRegion_print {e : Expr} (h : e.Written) (hs : e.Reprintable)
    (hr : ∀ (stop : Nat) (ls : List Lexeme), ls.map Lexeme.token = e.tokens → Recognized stop ls e)
    {fuel : Nat} (start : Nat) (hf : 8 * e.print.toList.length + 1 ≤ fuel) :
    ∃ e', parseRegion fuel ⟨start, e.print.toList⟩ = .ok e' ∧ e'.bare = e.bare := by
  have lexes := h.spells hs [] [] .nil (by simp) .done
  rw [List.append_nil, List.append_nil] at lexes
  obtain ⟨found, hfound, hts⟩ := lexes.tokens start _ (Nat.le_refl _)
  have weight := lexes.weight_le
  obtain ⟨fuel, rfl⟩ : ∃ n, fuel = n + 1 := ⟨fuel - 1, by omega⟩
  obtain ⟨e', he, hb⟩ := (hr (Region.mk start e.print.toList).stop found hts).expr fuel []
    (by rw [weightOf, hts]; omega) (by simp [Ends])
  rw [List.append_nil] at he
  refine ⟨e', ?_, hb⟩
  rw [parseRegion, tokenize, hfound]
  show (expr _ fuel found).bind _ = _
  rw [he]
  rfl

/-- A literal is read back. -/
theorem Value.Written.recognized {v : Value} {s : Span} {stop : Nat} {l : Lexeme} (h : v.Written)
    (hs : (Expr.literal s v).SafeForm) (hl : l.token = v.token) : ReadsChain stop [l] (.literal s v) := by
  have number {text : List Char} (ht : l.token = .number text) (hv : numeral? text = some v) :
      ReadsChain stop [l] (.literal s v) :=
    (reads_number ht hv s).chain (by simp [ht, Token.weight]) (by simp [ht, unaryOp?])
  cases v with
  | null => exact reads_word hl (by decide) fun _ => by simp [wordExpr, literalText, Expr.bare]
  | bool b =>
    cases b
    · exact reads_word hl (by decide) fun _ => by simp [wordExpr, literalText, Expr.bare]
    · exact reads_word hl (by decide) fun _ => by simp [wordExpr, literalText, Expr.bare]
  | text t =>
    exact (reads_string hl s).chain (by simp [hl, Value.token, stringToken, Token.weight])
      (by simp [hl, Value.token, stringToken, unaryOp?])
  | int i => exact number hl (numeral?_int h)
  | float x =>
    rcases h with rfl | rfl | ⟨⟨m, hm⟩, hn⟩
    · have word : l.token = .ident "NaN" := by
        rw [hl]
        decide +kernel
      exact reads_word word (by decide) fun _ => by simp [wordExpr, Expr.bare]
    · have word : l.token = .ident "Infinity" := by
        rw [hl]
        decide +kernel
      exact reads_word word (by decide) fun _ => by simp [wordExpr, Expr.bare]
    · have numeral : l.token = .number (floatText x).toList := by
        rw [hl]
        simp [Value.token, isNumeral, hm, literalText]
      exact number numeral (numeral?_float hm hn hs)
  | list | map => exact h.elim

/-- The body of an arrow function is read, and no brace stands in front of it. -/
theorem Grammar.reads_body {body : Expr} {stop : Nat} {ls : List Lexeme} (h : body.Written)
    (hs : body.isObject = true ∨ body.opensWithObject = false)
    (hr : ∀ ls : List Lexeme, ls.map Lexeme.token = body.tokens → Recognized stop ls body)
    (hl : ls.map Lexeme.token = if body.isObject then .openParen :: (body.tokens ++ [.closeParen])
      else body.tokens) :
    ReadsExpr stop ls body ∧ (∀ l ∈ ls.head?, l.token ≠ .openBrace) ∧ 0 < weightOf ls := by
  split at hl
  case isTrue ho =>
    obtain ⟨o, ls, rfl, hopen, hls⟩ := List.map_eq_cons_iff.1 hl
    obtain ⟨as, bs, rfl, has, hbs⟩ := map_append hls
    obtain ⟨c, rfl, hclose⟩ := List.map_eq_singleton_iff.1 hbs
    have weight : 0 < weightOf (o :: (as ++ [c])) := by simp [hopen, Token.weight]
    refine ⟨?_, by simp [hopen], weight⟩
    have chain : ReadsChain stop (o :: (as ++ [c])) body :=
      (reads_parentheses hopen hclose (hr as has).expr).chain weight (by simp [hopen, unaryOp?])
    have brace : ∃ b ls, as = b :: ls ∧ b.token = .openBrace := by
      cases body with
      | object =>
        rw [Expr.tokens] at has
        obtain ⟨b, ls, rfl, hb, -⟩ := List.map_eq_cons_iff.1 has
        exact ⟨b, ls, rfl, hb⟩
      | _ => cases ho
    have noArrow : NoArrow (o :: (as ++ [c])) := by
      obtain ⟨b, as, rfl, hb⟩ := brace
      intro rest _
      simp only [List.cons_append]
      rw [Parser.arrowParams_paren hopen (by rw [hb]; rfl), Parser.paramsTail_first (by simp [hb])]
    exact (chain.reads noArrow).expr
  case isFalse ho =>
    refine ⟨(hr ls hl).expr, ?_, weightOf_pos hl h.opens⟩
    have first := h.head_ne_brace (hs.resolve_left ho)
    rw [← hl] at first
    intro l hm
    exact first l.token (by simpa using ⟨l, hm, rfl⟩)

/-- A template literal is read when its parts are read from their printed text. -/
theorem Grammar.reads_template {parts : List TemplatePart} {stop : Nat} {l : Lexeme}
    (hl : l.token = .template (printParts parts).toList)
    (hr : ∀ fuel pos : Nat, 8 * (printParts parts).toList.length + 1 ≤ fuel →
      ∃ parts', templateParts fuel pos (printParts parts).toList = .ok parts' ∧
        bareParts parts' = bareParts parts) (s : Span) :
    ReadsPrimary stop [l] (.template s parts) := by
  intro fuel rest hf
  obtain ⟨t, s'⟩ := l
  cases hl
  simp only [weightOf_cons, weightOf_nil, Token.weight] at hf
  obtain ⟨fuel, rfl⟩ : ∃ n, fuel = n + 1 := ⟨fuel - 1, by omega⟩
  obtain ⟨parts', hparts, hb⟩ := hr fuel (s'.start + 1) (by omega)
  refine ⟨.template s' parts', ?_, by simp [Expr.bare, hb]⟩
  have lifted : (liftM (templateParts fuel (s'.start + 1) (printParts parts).toList) :
      Parser (List TemplatePart)) rest = .ok (parts', rest) := by
    rw [hparts]
    rfl
  rw [Grammar.primary, List.cons_append, bind_run (Parser.next_cons ..)]
  exact bind_run lifted

mutual

/-- The tokens of an expression are read as the expression. -/
theorem Expr.Written.recognized : ∀ {e : Expr}, e.Written → e.Reprintable →
    ∀ (stop : Nat) (ls : List Lexeme), ls.map Lexeme.token = e.tokens → Recognized stop ls e
  -- The lexemes are divided as the tokens of the expression are, and every part is read on its own.
  | .literal s v, h, hs, stop, ls, hl => by
    have ha := h.noArrow rfl ls hl
    rw [Expr.Written] at h
    rw [Expr.tokens] at hl
    obtain ⟨l, rfl, ht⟩ := List.map_eq_singleton_iff.1 hl
    have safe := hs _ (Expr.mem_subterms_self _)
    exact (h.recognized safe ht).reads ha
  | .template s parts, h, hs, stop, ls, hl => by
    have ha := h.noArrow rfl ls hl
    rw [Expr.Written] at h
    rw [Expr.tokens] at hl
    simp only [Expr.Reprintable, Expr.subterms, List.forall_mem_cons] at hs
    obtain ⟨l, rfl, ht⟩ := List.map_eq_singleton_iff.1 hl
    have template : ReadsPrimary stop [l] (.template s parts) :=
      reads_template ht (recognized_parts h hs.2) s
    exact (template.chain (by simp [ht, Token.weight]) (by simp [ht, unaryOp?])).reads ha
  | .name s n, h, _, stop, ls, hl => by
    have ha := h.noArrow rfl ls hl
    rw [Expr.Written] at h
    rw [Expr.tokens] at hl
    obtain ⟨l, rfl, ht⟩ := List.map_eq_singleton_iff.1 hl
    have word : ReadsChain stop [l] (.name s n) := by
      refine reads_word ht ?_ fun s' => by simp [wordExpr_name h.2, Expr.bare]
      rintro rfl
      exact h.2 (by decide)
    exact word.reads ha
  | .self s, h, _, stop, ls, hl => by
    have ha := h.noArrow rfl ls hl
    rw [Expr.tokens] at hl
    obtain ⟨l, rfl, ht⟩ := List.map_eq_singleton_iff.1 hl
    have word : ReadsChain stop [l] (.self s) :=
      reads_word ht (by decide) fun s' => by simp [wordExpr, Expr.bare]
    exact word.reads ha
  | .member s o p optional, h, hs, stop, ls, hl => by
    have ha := h.noArrow rfl ls hl
    rw [Expr.Written] at h
    rw [Expr.tokens] at hl
    simp only [Expr.Reprintable, Expr.subterms, List.forall_mem_cons] at hs
    obtain ⟨as, bs, rfl, has, hbs⟩ := map_append hl
    obtain ⟨d, bs, rfl, hd, hbs⟩ := List.map_eq_cons_iff.1 hbs
    obtain ⟨n, rfl, hn⟩ := List.map_eq_singleton_iff.1 hbs
    have object := reads_object (fun ls => h.2.recognized hs.2 stop ls) has
    exact (object.member hd hn s).reads ha
  | .index s o i optional, h, hs, stop, ls, hl => by
    have ha := h.noArrow rfl ls hl
    rw [Expr.Written] at h
    rw [Expr.tokens] at hl
    simp only [Expr.Reprintable, Expr.subterms, List.forall_mem_cons, List.forall_mem_append] at hs
    obtain ⟨as, bs, rfl, has, hbs⟩ := map_append hl
    obtain ⟨d, bs, rfl, hd, hbs⟩ := map_append hbs
    obtain ⟨b, bs, rfl, hb, hbs⟩ := List.map_eq_cons_iff.1 hbs
    obtain ⟨is, bs, rfl, his, hbs⟩ := map_append hbs
    obtain ⟨c, rfl, hc⟩ := List.map_eq_singleton_iff.1 hbs
    have object := reads_object (fun ls => h.1.recognized hs.2.1 stop ls) has
    have inside := (h.2.recognized hs.2.2 stop is his).expr
    exact (object.index inside hd hb hc s).reads ha
  | .call s o args, h, hs, stop, ls, hl => by
    have ha := h.noArrow rfl ls hl
    rw [Expr.Written] at h
    rw [Expr.tokens] at hl
    simp only [Expr.Reprintable, Expr.subterms, List.forall_mem_cons, List.forall_mem_append] at hs
    obtain ⟨as, bs, rfl, has, hbs⟩ := map_append hl
    obtain ⟨b, bs, rfl, hb, hbs⟩ := List.map_eq_cons_iff.1 hbs
    obtain ⟨is, bs, rfl, his, hbs⟩ := map_append hbs
    obtain ⟨c, rfl, hc⟩ := List.map_eq_singleton_iff.1 hbs
    have callee := reads_object (fun ls => h.1.recognized hs.2.1 stop ls) has
    exact (callee.call (recognized_all h.2 hs.2.2 stop is his) hb hc s).reads ha
  | .unary s op e, h, hs, stop, ls, hl => by
    have ha := h.noArrow rfl ls hl
    have hw := weightOf_pos hl h.opens
    rw [Expr.Written] at h
    rw [Expr.tokens] at hl
    simp only [Expr.Reprintable, Expr.subterms, List.forall_mem_cons] at hs
    obtain ⟨l, ls, rfl, hop, hls⟩ := List.map_eq_cons_iff.1 hl
    have operand : ReadsUnary stop ls e := by
      rcases reads_enclose (fun ls => h.recognized hs.2 stop ls) hls with hc | ⟨hp, hr⟩
      · exact hc.unary
      · exact hr.unary hp
    exact (reads_unary hop operand s).reads hw ha rfl
  | .binary s op l r, h, hs, stop, ls, hl => by
    have ha := h.noArrow rfl ls hl
    rw [Expr.Written] at h
    rw [Expr.tokens] at hl
    simp only [Expr.Reprintable, Expr.subterms, List.forall_mem_cons, List.forall_mem_append] at hs
    obtain ⟨as, bs, rfl, has, hbs⟩ := map_append hl
    obtain ⟨o, bs, rfl, ho, hbs⟩ := List.map_eq_cons_iff.1 hbs
    have bounds : 1 ≤ op.precedence ∧ op.precedence ≤ 6 := by cases op <;> decide
    have left := reads_operand bounds.1 (fun ls => h.1.recognized hs.2.1 stop ls) has
    have right := reads_operand (by omega) (fun ls => h.2.recognized hs.2.2 stop ls) hbs
    exact (reads_binary ho left right s).reads ha bounds
  | .conditional s c t n, h, hs, stop, ls, hl => by
    have ha := h.noArrow rfl ls hl
    rw [Expr.Written] at h
    rw [Expr.tokens] at hl
    simp only [Expr.Reprintable, Expr.subterms, List.forall_mem_cons, List.forall_mem_append] at hs
    obtain ⟨as, bs, rfl, has, hbs⟩ := map_append hl
    obtain ⟨q, bs, rfl, hq, hbs⟩ := List.map_eq_cons_iff.1 hbs
    obtain ⟨ts, cs, rfl, hts, hcs⟩ := map_append hbs
    obtain ⟨k, cs, rfl, hk, hcs⟩ := List.map_eq_cons_iff.1 hcs
    have test := reads_operand (Nat.le_refl 1) (fun ls => h.1.recognized hs.2.1 stop ls) has
    have yes := (h.2.1.recognized hs.2.2.1 stop ts hts).expr
    have no := (h.2.2.recognized hs.2.2.2 stop cs hcs).expr
    exact .ofExpr (reads_conditional test hq yes hk no ha s) rfl
  | .array s items, h, hs, stop, ls, hl => by
    have ha := h.noArrow rfl ls hl
    rw [Expr.Written] at h
    rw [Expr.tokens] at hl
    simp only [Expr.Reprintable, Expr.subterms, List.forall_mem_cons] at hs
    obtain ⟨b, bs, rfl, hb, hbs⟩ := List.map_eq_cons_iff.1 hl
    obtain ⟨is, bs, rfl, his, hbs⟩ := map_append hbs
    obtain ⟨c, rfl, hc⟩ := List.map_eq_singleton_iff.1 hbs
    have list := reads_array hb hc (recognized_all h hs.2 stop is his) s
    exact (list.chain (by simp [hb, Token.weight]) (by simp [hb, unaryOp?])).reads ha
  | .object s entries, h, hs, stop, ls, hl => by
    have ha := h.noArrow rfl ls hl
    rw [Expr.Written] at h
    rw [Expr.tokens] at hl
    simp only [Expr.Reprintable, Expr.subterms, List.forall_mem_cons] at hs
    obtain ⟨b, bs, rfl, hb, hbs⟩ := List.map_eq_cons_iff.1 hl
    obtain ⟨is, bs, rfl, his, hbs⟩ := map_append hbs
    obtain ⟨c, rfl, hc⟩ := List.map_eq_singleton_iff.1 hbs
    have object := reads_braces hb hc (recognized_entries h hs.1 hs.2 stop is his) s
    exact (object.chain (by simp [hb, Token.weight]) (by simp [hb, unaryOp?])).reads ha
  | .arrow s params body, h, hs, stop, ls, hl => by
    rw [Expr.Written] at h
    rw [Expr.tokens] at hl
    simp only [Expr.Reprintable, Expr.subterms, List.forall_mem_cons] at hs
    obtain ⟨o, ls, rfl, ho, hls⟩ := List.map_eq_cons_iff.1 hl
    obtain ⟨ps, bs, rfl, hps, hbs⟩ := map_append hls
    obtain ⟨c, bs, rfl, hc, hbs⟩ := List.map_eq_cons_iff.1 hbs
    obtain ⟨a, bs, rfl, ha, hbs⟩ := List.map_eq_cons_iff.1 hbs
    have inside := h.2.recognized hs.2 stop
    obtain ⟨hexpr, hbrace, hw⟩ := reads_body h.2 hs.1 inside hbs
    exact .ofExpr (reads_arrow ho hps hc ha hexpr hbrace hw s) rfl
  | .root .., h, _, _, _, _ | .method .., h, _, _, _, _ | .function .., h, _, _, _, _ => by
    rw [Expr.Written] at h
    exact h.elim

theorem recognized_all : ∀ {es : List Expr}, writtenAll es → (∀ x ∈ subtermsAll es, x.SafeForm) →
    ∀ (stop : Nat) (ls : List Lexeme), ls.map Lexeme.token = [.comma].intercalate (tokensAll es) →
      ReadsList stop ls es
  | [], _, _, stop, ls, hl => by
    obtain rfl : ls = [] := by simpa [tokensAll] using hl
    exact readsList_nil stop
  | [e], h, hs, stop, ls, hl => by
    rw [writtenAll] at h
    simp only [subtermsAll, List.forall_mem_append] at hs
    have hl : ls.map Lexeme.token = e.tokens := by simpa [tokensAll] using hl
    exact readsList_single (h.1.recognized hs.1 stop ls hl).expr hl h.1.opens
  | e :: e' :: es, h, hs, stop, ls, hl => by
    rw [writtenAll] at h
    rw [subtermsAll, List.forall_mem_append] at hs
    rw [tokensAll, tokensAll, List.intercalate_cons_cons, List.append_assoc] at hl
    obtain ⟨as, bs, rfl, has, hbs⟩ := map_append hl
    obtain ⟨k, bs, rfl, hk, hbs⟩ := List.map_eq_cons_iff.1 hbs
    exact readsList_cons (h.1.recognized hs.1 stop as has).expr has h.1.opens hk
      (recognized_all h.2 hs.2 stop bs hbs)

theorem recognized_entries : ∀ {entries : List (String × Expr)}, writtenEntries entries →
    (∀ s k, (k, Expr.name s k) ∈ entries → k ∉ reservedWords) →
    (∀ x ∈ subtermsEntries entries, x.SafeForm) →
    ∀ (stop : Nat) (ls : List Lexeme),
      ls.map Lexeme.token = [.comma].intercalate (tokensEntries entries) → ReadsEntries stop ls entries
  | [], _, _, _, stop, ls, hl => by
    obtain rfl : ls = [] := by simpa [tokensEntries] using hl
    exact readsEntries_nil stop
  | [(k, e)], h, hk, hs, stop, ls, hl => by
    have written := writtenEntries_head h hk
    simp only [subtermsEntries, List.forall_mem_append] at hs
    have hl : ls.map Lexeme.token = keyToken k :: .colon :: e.tokens := by
      simpa [tokensEntries] using hl
    obtain ⟨key, ls, rfl, hkey, hls⟩ := List.map_eq_cons_iff.1 hl
    obtain ⟨colon, ls, rfl, hcolon, hls⟩ := List.map_eq_cons_iff.1 hls
    exact readsEntries_single hkey hcolon (written.recognized hs.1 stop ls hls).expr
  | (k, e) :: entry :: entries, h, hk, hs, stop, ls, hl => by
    have written := writtenEntries_head h hk
    rw [writtenEntries] at h
    rw [subtermsEntries, List.forall_mem_append] at hs
    have some : tokensEntries (entry :: entries) ≠ [] := by simp [tokensEntries]
    rw [tokensEntries, List.intercalate_cons_of_ne_nil some, List.append_assoc] at hl
    obtain ⟨key, ls, rfl, hkey, hls⟩ := List.map_eq_cons_iff.1 hl
    obtain ⟨colon, ls, rfl, hcolon, hls⟩ := List.map_eq_cons_iff.1 hls
    obtain ⟨as, bs, rfl, has, hbs⟩ := map_append hls
    obtain ⟨comma, bs, rfl, hcomma, hbs⟩ := List.map_eq_cons_iff.1 hbs
    exact readsEntries_cons hkey hcolon (written.recognized hs.1 stop as has).expr hcomma
      (recognized_entries h.2 (fun s k hm => hk s k (List.mem_cons_of_mem _ hm)) hs.2 stop bs hbs)

theorem recognized_parts : ∀ {parts : List TemplatePart}, writtenParts parts →
    (∀ x ∈ subtermsParts parts, x.SafeForm) → ∀ fuel pos : Nat,
      8 * (printParts parts).toList.length + 1 ≤ fuel →
        ∃ parts', templateParts fuel pos (printParts parts).toList = .ok parts' ∧
          bareParts parts' = bareParts parts
  | [], _, _ => by
    intro fuel pos hf
    obtain ⟨fuel, rfl⟩ : ∃ n, fuel = n + 1 := ⟨fuel - 1, by omega⟩
    refine ⟨[], ?_, rfl⟩
    rw [printParts]
    rfl
  | .text t :: parts, h, hs => by
    intro fuel pos hf
    rw [writtenParts] at h
    rw [subtermsParts] at hs
    rw [printParts, String.toList_append, String.toList_ofList, List.length_append] at hf
    obtain ⟨fuel', pos', hf', ht⟩ := templateParts_templateText t.toList (printParts parts).toList
      (by simpa using head_printParts h.2.1 [] (by simp)) fuel pos (by omega)
    obtain ⟨parts', hparts, hb⟩ := recognized_parts h.2.2 hs fuel' pos' (by omega)
    have opens : opensWithText parts' = false := by
      rw [← opensWithText_bareParts, hb, opensWithText_bareParts, h.2.1]
    have some : t.toList ≠ [] := by simpa using h.1
    refine ⟨.text t :: parts', ?_, by simp [bareParts, hb]⟩
    rw [printParts, String.toList_append, String.toList_ofList, ht, hparts]
    show Except.ok (t.toList.foldr pushChar parts') = _
    rw [foldr_pushChar opens _ some, String.ofList_toList]
  | .hole e :: parts, h, hs => by
    intro fuel pos hf
    rw [writtenParts] at h
    rw [subtermsParts, List.forall_mem_append] at hs
    have shape : (printParts (.hole e :: parts)).toList =
        '$' :: '{' :: (e.print.toList ++ '}' :: (printParts parts).toList) := by
      simp [printParts]
    rw [shape] at hf ⊢
    simp only [List.length_cons, List.length_append] at hf
    obtain ⟨fuel, rfl⟩ : ∃ n, fuel = n + 1 := ⟨fuel - 1, by omega⟩
    obtain ⟨e', he, hb⟩ := h.1.parseRegion_print hs.1 (h.1.recognized hs.1) (pos + 2)
      (show 8 * e.print.toList.length + 1 ≤ fuel by omega)
    obtain ⟨parts', hparts, hbs⟩ := recognized_parts h.2 hs.2 fuel
      (pos + 2 + byteLength (e.print.toList ++ ['}'])) (by omega)
    refine ⟨.hole e' :: parts', ?_, by simp [bareParts, hb, hbs]⟩
    rw [templateParts, h.1.balanced.closeBrace]
    dsimp only
    rw [List.dropLast_concat, he]
    show (templateParts fuel _ _).bind _ = _
    rw [hparts]
    rfl

end

end LiveTemplate
