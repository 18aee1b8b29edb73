/-
How tokens divide a source. A source is a row of stretches: a run of text, a guarded brace, a pair of
braces, a tag, a comment, or a tag without its end that goes up to the end of the source. Each gives
at most one token, and nothing of it is left out but the braces, the guard and the comment. So the
tokens come in order and apart from each other, and every byte of the source is accounted for.
-/
import LiveTemplate.Markup.Token
import LiveTemplate.Proofs.Location.Regions

namespace LiveTemplate

open Text

namespace Markup

/-! ## Stretches -/

/-- A comment, and what follows it. It goes up to the first `-->`, or to the end of the source. -/
inductive Comment : List Char → List Char → Prop
  | closed {body : List Char} (rest : List Char) : ¬ ['-', '-', '>'] <:+: body ++ ['-', '-'] →
    Comment ('<' :: '!' :: '-' :: '-' :: (body ++ ['-', '-', '>'])) rest
  | unclosed {body : List Char} : ¬ ['-', '-', '>'] <:+: body →
    Comment ('<' :: '!' :: '-' :: '-' :: body) []

/-- A stretch of a source at offset `pos`, what follows it, and the tokens that it gives. -/
inductive Stretch (pos : Nat) : List Char → List Char → List Token → Prop
  | text {c : Char} {run : List Char} (rest : List Char) : '{' ∉ c :: run →
    Stretch pos (c :: run) rest [.text ⟨pos, c :: run⟩]
  | guarded (rest : List Char) : Stretch pos ['\\', '{'] rest [.text ⟨pos + 1, ['{']⟩]
  | braced (inside rest : List Char) :
    Stretch pos ('{' :: (inside ++ ['}'])) rest [.braced ⟨pos + 1, inside⟩]
  | tag (inside rest : List Char) :
    Stretch pos ('<' :: (inside ++ ['>'])) rest [.tag ⟨pos, '<' :: (inside ++ ['>'])⟩]
  | comment {cs rest : List Char} : Comment cs rest → Stretch pos cs rest []
  | unterminated {cs : List Char} {unclosed : Delimiter.Unclosed} : startsTag cs = true →
    Delimiter.closeTag pos cs = .error unclosed →
      Stretch pos ('<' :: cs) [] [.unterminated ⟨pos, '<' :: cs⟩]

/-- A text at offset `pos` as a row of stretches, with all their tokens. -/
inductive Divided : Nat → List Char → List Token → Prop
  | done (pos : Nat) : Divided pos [] []
  | stretch {pos : Nat} {cs rest : List Char} {here others : List Token} :
    Stretch pos cs rest here → Divided (pos + byteLength cs) rest others →
      Divided pos (cs ++ rest) (here ++ others)

theorem Stretch.nonempty {pos : Nat} {cs rest : List Char} {here : List Token}
    (h : Stretch pos cs rest here) : cs ≠ [] := by
  cases h with
  | comment h => cases h <;> exact List.cons_ne_nil _ _
  | _ => exact List.cons_ne_nil _ _

/-! ## Comments and runs of text -/

theorem afterComment_comment (cs : List Char) :
    (∃ body, cs = body ++ ['-', '-', '>'] ++ afterComment cs ∧
      ¬ ['-', '-', '>'] <:+: body ++ ['-', '-']) ∨
    (afterComment cs = [] ∧ ¬ ['-', '-', '>'] <:+: cs) := by
  fun_induction afterComment cs with
  | case1 => exact .inr ⟨rfl, by decide⟩
  | case2 rest => exact .inl ⟨[], rfl, by decide⟩
  | case3 c rest other ih =>
    have noEnd : ¬ ['-', '-', '>'] <+: c :: rest := by
      rintro ⟨more, eq⟩
      cases eq
      exact other more rfl rfl
    rcases ih with ⟨body, eq, first⟩ | ⟨eq, none⟩
    · refine .inl ⟨c :: body, by rw [List.cons_append, List.cons_append, ← eq], ?_⟩
      rw [List.cons_append, List.infix_cons_iff, not_or]
      refine ⟨fun start => noEnd (start.trans ?_), first⟩
      rw [eq]
      exact ⟨'>' :: afterComment rest, by simp⟩
    · refine .inr ⟨eq, ?_⟩
      rw [List.infix_cons_iff, not_or]
      exact ⟨noEnd, none⟩

theorem afterComment_stretch (cs : List Char) :
    ∃ comment, '<' :: '!' :: '-' :: '-' :: cs = comment ++ afterComment cs ∧
      Comment comment (afterComment cs) := by
  rcases afterComment_comment cs with ⟨body, eq, first⟩ | ⟨eq, none⟩
  · refine ⟨'<' :: '!' :: '-' :: '-' :: (body ++ ['-', '-', '>']), ?_, .closed _ first⟩
    simpa using eq
  · refine ⟨'<' :: '!' :: '-' :: '-' :: cs, by simp [eq], ?_⟩
    rw [eq]
    exact .unclosed none

theorem textRun_prefix : ∀ cs : List Char, ∃ rest, cs = textRun cs ++ rest
  | [] => ⟨[], rfl⟩
  | c :: cs => by
    rw [textRun]
    split
    · exact ⟨_, rfl⟩
    · obtain ⟨rest, eq⟩ := textRun_prefix cs
      exact ⟨rest, by rw [List.cons_append, ← eq]⟩

theorem not_mem_textRun : ∀ cs : List Char, '{' ∉ textRun cs
  | [] => List.not_mem_nil
  | c :: cs => by
    rw [textRun]
    split
    · exact List.not_mem_nil
    · rename_i goes
      simp only [Bool.or_eq_true, beq_iff_eq, not_or] at goes
      rw [List.mem_cons, not_or]
      exact ⟨Ne.symm goes.1.1, not_mem_textRun cs⟩

theorem closeBrace_inner {opened : Nat} {rest inside after : List Char}
    (h : Delimiter.closeBrace opened rest = .ok (inside, after)) :
    ∃ inner, inside = inner ++ ['}'] := by
  have last := Delimiter.getLast?_of_close h rfl
  exact ⟨inside.dropLast, (List.dropLast_append_getLast? '}' last).symm⟩

theorem closeTag_inner {opened : Nat} {rest inside after : List Char}
    (h : Delimiter.closeTag opened rest = .ok (inside, after)) :
    ∃ inner, inside = inner ++ ['>'] := by
  have last := Delimiter.getLast?_of_close h rfl
  exact ⟨inside.dropLast, (List.dropLast_append_getLast? '>' last).symm⟩

/-! ## Steps -/

/-- One step of the division of a text: a brace without its partner ends it, or a stretch is read,
behind which it goes on. -/
theorem tokensFrom_step (pos : Nat) (c : Char) (cs : List Char) :
    (∃ unclosed, c = '{' ∧ Delimiter.closeBrace pos cs = .error unclosed ∧
      ∀ fuel, tokensFrom (fuel + 1) pos (c :: cs) = ([], some unclosed.fault)) ∨
      ∃ read rest here, c :: cs = read ++ rest ∧ Stretch pos read rest here ∧
        ∀ fuel, tokensFrom (fuel + 1) pos (c :: cs) =
          (here ++ (tokensFrom fuel (pos + byteLength read) rest).1,
            (tokensFrom fuel (pos + byteLength read) rest).2) := by
  -- a stretch with one token, behind which the division goes on
  have one (read : List Char) {token : Token} {rest : List Char} (whole : c :: cs = read ++ rest)
      (stretch : Stretch pos read rest [token])
      (step : ∀ fuel, tokensFrom (fuel + 1) pos (c :: cs) =
        (token :: (tokensFrom fuel (pos + byteLength read) ((c :: cs).drop read.length)).1,
          (tokensFrom fuel (pos + byteLength read) ((c :: cs).drop read.length)).2)) :
      ∃ read rest here, c :: cs = read ++ rest ∧ Stretch pos read rest here ∧
        ∀ fuel, tokensFrom (fuel + 1) pos (c :: cs) =
          (here ++ (tokensFrom fuel (pos + byteLength read) rest).1,
            (tokensFrom fuel (pos + byteLength read) rest).2) := by
    refine ⟨read, rest, _, whole, stretch, fun fuel => ?_⟩
    rw [step, whole, List.drop_left]
    rfl
  by_cases escaped : (c == '\\' && cs.head? == some '{') = true
  · right
    obtain ⟨rfl, hr⟩ : c = '\\' ∧ cs.head? = some '{' := by simpa using escaped
    obtain ⟨more, rfl⟩ := List.head?_eq_some_iff.1 hr
    exact one ['\\', '{'] rfl (.guarded more) fun fuel => by rw [tokensFrom, if_pos escaped]
  by_cases brace : (c == '{') = true
  · obtain rfl : c = '{' := beq_iff_eq.1 brace
    rcases hc : Delimiter.closeBrace pos cs with unclosed | ⟨inside, after⟩
    · exact .inl ⟨unclosed, rfl, rfl, fun fuel => by
        rw [tokensFrom, if_neg escaped, if_pos brace, hc]⟩
    · right
      obtain ⟨inner, rfl⟩ := closeBrace_inner hc
      have whole : cs = inner ++ ['}'] ++ after := Delimiter.eq_of_close hc
      refine one ('{' :: (inner ++ ['}'])) (by rw [whole]; rfl) (.braced inner after) fun fuel => ?_
      rw [tokensFrom, if_neg escaped, if_pos brace, hc]
      dsimp only
      rw [List.dropLast_concat]
  by_cases comment : (c == '<' && ['!', '-', '-'].isPrefixOf cs) = true
  · right
    obtain ⟨rfl, more, rfl⟩ : c = '<' ∧ ['!', '-', '-'] <+: cs := by simpa using comment
    obtain ⟨read, whole, isComment⟩ := afterComment_stretch more
    refine ⟨read, afterComment more, [], whole, .comment isComment, fun fuel => ?_⟩
    have length : ('<' :: (['!', '-', '-'] ++ more)).length - (afterComment more).length =
        read.length := by
      show ('<' :: '!' :: '-' :: '-' :: more).length - _ = _
      rw [whole, List.length_append, Nat.add_sub_cancel]
    have front : ('<' :: (['!', '-', '-'] ++ more)).take read.length = read := by
      show ('<' :: '!' :: '-' :: '-' :: more).take _ = _
      rw [whole, List.take_left]
    have inside : (['!', '-', '-'] ++ more).drop 3 = more := rfl
    rw [tokensFrom, if_neg escaped, if_neg brace, if_pos comment, inside]
    dsimp only
    rw [length, front]
    rfl
  by_cases opens : (c == '<' && startsTag cs) = true
  · right
    obtain ⟨rfl, starts⟩ : c = '<' ∧ startsTag cs = true := by simpa using opens
    rcases hc : Delimiter.closeTag pos cs with unclosed | ⟨inside, after⟩
    · refine ⟨'<' :: cs, [], _, (List.append_nil _).symm, .unterminated starts hc, fun fuel => ?_⟩
      rw [tokensFrom, if_neg escaped, if_neg brace, if_neg comment, if_pos opens, hc]
      cases fuel <;> rfl
    · obtain ⟨inner, rfl⟩ := closeTag_inner hc
      have whole : cs = inner ++ ['>'] ++ after := Delimiter.eq_of_close hc
      refine one ('<' :: (inner ++ ['>'])) (by rw [whole]; rfl) (.tag inner after) fun fuel => ?_
      rw [tokensFrom, if_neg escaped, if_neg brace, if_neg comment, if_pos opens, hc]
  · right
    obtain ⟨rest, whole⟩ := textRun_prefix cs
    have plain : '{' ∉ c :: textRun cs := by
      rw [List.mem_cons, not_or]
      exact ⟨fun h => brace (by rw [← h]; rfl), not_mem_textRun cs⟩
    refine one (c :: textRun cs) (by rw [List.cons_append, ← whole]) (.text rest plain) fun fuel => ?_
    rw [tokensFrom, if_neg escaped, if_neg brace, if_neg comment, if_neg opens]

/-- Steps beyond the length of a text change nothing. -/
theorem tokensFrom_enough : ∀ {fuel fuel' : Nat} {pos : Nat} {cs : List Char}, cs.length ≤ fuel →
    cs.length ≤ fuel' → tokensFrom fuel pos cs = tokensFrom fuel' pos cs
  | fuel, fuel', pos, [], _, _ => by cases fuel <;> cases fuel' <;> rfl
  | fuel + 1, fuel' + 1, pos, c :: cs, h, h' => by
    rcases tokensFrom_step pos c cs with ⟨unclosed, -, -, step⟩ | ⟨read, rest, here, whole, part, step⟩
    · rw [step, step]
    · have shorter : rest.length < (c :: cs).length := by
        rw [whole, List.length_append]
        exact Nat.lt_add_of_pos_left (List.length_pos_of_ne_nil part.nonempty)
      rw [step, step, tokensFrom_enough (Nat.le_of_lt_succ (shorter.trans_le h))
        (Nat.le_of_lt_succ (shorter.trans_le h'))]

/-- Where no fault ends it, a text is divided. -/
theorem tokensFrom_divided : ∀ {fuel pos : Nat} {cs : List Char}, cs.length ≤ fuel →
    (tokensFrom fuel pos cs).2 = none → Divided pos cs (tokensFrom fuel pos cs).1
  | fuel, pos, [], _, _ => by
    cases fuel <;> exact .done pos
  | fuel + 1, pos, c :: cs, h, good => by
    rcases tokensFrom_step pos c cs with ⟨unclosed, -, -, step⟩ | ⟨read, rest, here, whole, part, step⟩
    · rw [step] at good
      cases good
    · have shorter : rest.length < (c :: cs).length := by
        rw [whole, List.length_append]
        exact Nat.lt_add_of_pos_left (List.length_pos_of_ne_nil part.nonempty)
      rw [step] at good ⊢
      rw [whole]
      exact .stretch part (tokensFrom_divided (Nat.le_of_lt_succ (shorter.trans_le h)) good)

/-! ## Places -/

namespace Stretch

variable {source cs rest : List Char} {here : List Token} {pos : Nat}

/-- The token of a stretch begins in it, and does not go beyond it. -/
theorem bounds (h : Stretch pos cs rest here) : ∀ t ∈ here, pos ≤ t.region.start ∧
    t.region.start < pos + byteLength cs ∧ t.region.stop ≤ pos + byteLength cs := by
  have size (c : Char) : 0 < c.utf8Size := c.utf8Size_pos
  cases h with
  | @text c run _ _ =>
    have := size c
    simp only [List.forall_mem_singleton, Token.region, Region.stop, byteLength]
    omega
  | @unterminated cs =>
    have := size '<'
    simp only [List.forall_mem_singleton, Token.region, Region.stop, byteLength]
    omega
  | comment => exact List.forall_mem_nil _
  | _ =>
    simp only [List.forall_mem_singleton, Token.region, Region.stop, byteLength,
      Delimiter.byteLength_append, show '{'.utf8Size = 1 from rfl, show '}'.utf8Size = 1 from rfl,
      show '\\'.utf8Size = 1 from rfl, show '<'.utf8Size = 1 from rfl]
    omega

theorem within (h : Stretch pos cs rest here) (part : Region.Within source ⟨pos, cs⟩) :
    ∀ t ∈ here, t.region.Within source := by
  cases h with
  | text | tag | unterminated => exact List.forall_mem_singleton.2 part
  | guarded => exact List.forall_mem_singleton.2 part.rest
  | braced inside =>
    have behind : Region.Within source ⟨pos + 1, inside ++ ['}']⟩ := part.rest
    exact List.forall_mem_singleton.2 behind.left
  | comment => exact List.forall_mem_nil _

end Stretch

namespace Divided

variable {pos : Nat} {cs : List Char} {ts : List Token}

theorem bounds (h : Divided pos cs ts) : ∀ t ∈ ts, pos ≤ t.region.start ∧
    t.region.start < pos + byteLength cs ∧ t.region.stop ≤ pos + byteLength cs := by
  induction h with
  | done => exact List.forall_mem_nil _
  | stretch part _ ih =>
    rw [Delimiter.byteLength_append, List.forall_mem_append]
    refine ⟨fun t ht => ?_, fun t ht => ?_⟩
    · have := part.bounds t ht
      omega
    · have := ih t ht
      omega

/-- The tokens come in order, each behind the one before. -/
theorem ordered (h : Divided pos cs ts) : ts.Pairwise fun a b =>
    a.region.start < b.region.start ∧ a.region.stop ≤ b.region.start := by
  induction h with
  | done => exact .nil
  | stretch part others ih =>
    refine List.pairwise_append.2 ⟨?_, ih, fun t ht u hu => ?_⟩
    · cases part with
      | comment => exact .nil
      | _ => exact List.pairwise_singleton _ _
    · have front := part.bounds t ht
      have behind := others.bounds u hu
      omega

end Divided

/-- A stretch of a source with the tokens `ts`: its own tokens are among them, and all others lie
before or behind it. -/
structure HasStretch (source : List Char) (ts : List Token) (start : Nat) (cs rest : List Char)
    (here : List Token) : Prop where
  stretch : Stretch start cs rest here
  placed : Region.Before source rest ⟨start, cs⟩
  apart : ∀ t ∈ ts, t ∈ here ∨ (t.region.start < start ∧ t.region.stop ≤ start) ∨
    start + byteLength cs ≤ t.region.start

namespace Divided

variable {source : List Char} {pos n : Nat} {cs : List Char} {ts : List Token}

/-- Every byte lies in a stretch. -/
theorem stretch_at (h : Divided pos cs ts) (hs : Region.Before source [] ⟨pos, cs⟩) (hn : pos ≤ n)
    (hn' : n < pos + byteLength cs) : ∃ start cs rest here, HasStretch source ts start cs rest here ∧
      (∀ t ∈ here, t ∈ ts) ∧ pos ≤ start ∧ start ≤ n ∧ n < start + byteLength cs := by
  induction h with
  | done => simp [byteLength] at hn'; omega
  | @stretch pos cs rest here others part divided ih =>
    rw [Delimiter.byteLength_append] at hn'
    by_cases inside : n < pos + byteLength cs
    · refine ⟨pos, cs, rest, here, ⟨part, ?_, fun t ht => ?_⟩,
        fun t => List.mem_append_left _, Nat.le_refl _, hn, inside⟩
      · simpa using hs.left
      · rcases List.mem_append.1 ht with first | later
        · exact .inl first
        · exact .inr (.inr (divided.bounds t later).1)
    · obtain ⟨start, cs', rest', here', found, among, le, here⟩ := ih hs.right (by omega) (by omega)
      refine ⟨start, cs', rest', here', ⟨found.stretch, found.placed, fun t ht => ?_⟩,
        fun t ht => List.mem_append_right _ (among t ht), by omega, here⟩
      rcases List.mem_append.1 ht with first | later
      · have := part.bounds t first
        exact .inr (.inl (by omega))
      · exact found.apart t later

/-- Every token is that of a stretch. -/
theorem stretch_of (h : Divided pos cs ts) (hs : Region.Before source [] ⟨pos, cs⟩) {t : Token}
    (ht : t ∈ ts) : ∃ start cs rest here, HasStretch source ts start cs rest here ∧ t ∈ here := by
  obtain ⟨lo, hi, -⟩ := h.bounds t ht
  obtain ⟨start, cs, rest, here, found, -, -, le, lt⟩ := h.stretch_at hs lo hi
  refine ⟨start, cs, rest, here, found, ?_⟩
  rcases found.apart t ht with own | before | behind
  · exact own
  · omega
  · omega

end Divided

/-! ## Covers -/

/-- A byte of the source that no token covers: a brace around an expression, the backslash before a
guarded brace, or a byte of a comment, which no token has a part of. -/
inductive LeftOut (source : List Char) (ts : List Token) (n : Nat) : Prop
  | opening (r : Region) : .braced r ∈ ts → r.start = n + 1 → Region.Within source ⟨n, ['{']⟩ →
    LeftOut source ts n
  | closing (r : Region) : .braced r ∈ ts → r.stop = n → Region.Within source ⟨n, ['}']⟩ →
    LeftOut source ts n
  | guard (r : Region) : .text r ∈ ts → r.start = n + 1 → r.text = ['{'] →
    Region.Within source ⟨n, ['\\']⟩ → LeftOut source ts n
  | comment (c : Region) (rest : List Char) : c.Before source rest → Comment c.text rest →
    (∀ t ∈ ts, t.region.stop ≤ c.start ∨ c.stop ≤ t.region.start) → c.start ≤ n → n < c.stop →
      LeftOut source ts n

/-- Tokens that lose and double nothing of a source. -/
structure Covers (source : List Char) (ts : List Token) : Prop where
  /-- The spans increase and are disjoint. -/
  ordered : ts.Pairwise fun a b =>
    a.region.start < b.region.start ∧ a.region.stop ≤ b.region.start
  /-- A token is the text between two boundaries of characters. -/
  placed : ∀ t ∈ ts, t.region.Within source ∧ t.region.span.Fits source
  accounted : ∀ n < byteLength source,
    (∃ t ∈ ts, t.region.start ≤ n ∧ n < t.region.stop) ∨ LeftOut source ts n
  /-- A brace in a text is guarded. -/
  texts : ∀ r, .text r ∈ ts → '{' ∉ r.text ∨
    r.text = ['{'] ∧ ∃ n, r.start = n + 1 ∧ Region.Within source ⟨n, ['\\', '{']⟩
  /-- A tag without its end goes up to the end of the source. -/
  unterminated : ∀ r, .unterminated r ∈ ts → Region.Before source [] r ∧
    ∃ cs unclosed, r.text = '<' :: cs ∧ startsTag cs = true ∧
      Delimiter.closeTag r.start cs = .error unclosed

theorem HasStretch.accounted {source cs rest : List Char} {ts here : List Token} {start n : Nat}
    (h : HasStretch source ts start cs rest here) (among : ∀ t ∈ here, t ∈ ts) (le : start ≤ n)
    (lt : n < start + byteLength cs) :
    (∃ t ∈ ts, t.region.start ≤ n ∧ n < t.region.stop) ∨ LeftOut source ts n := by
  obtain ⟨stretch, placed, apart⟩ := h
  cases stretch with
  | text | tag | unterminated =>
    exact .inl ⟨_, among _ List.mem_cons_self, le, lt⟩
  | guarded =>
    have own := among _ List.mem_cons_self
    by_cases first : n = start
    · subst first
      exact .inr (.guard _ own rfl rfl (placed.within.left (a := ['\\'])))
    · exact .inl ⟨_, own, by show start + 1 ≤ n; omega, lt⟩
  | braced inside =>
    have own := among _ List.mem_cons_self
    by_cases first : n = start
    · subst first
      exact .inr (.opening _ own rfl (placed.within.left (a := ['{'])))
    by_cases last : n = start + 1 + byteLength inside
    · have behind : Region.Within source ⟨start + 1, inside ++ ['}']⟩ := placed.within.rest
      exact .inr (.closing _ own last.symm (last ▸ behind.right))
    · refine .inl ⟨_, own, by show start + 1 ≤ n; omega, ?_⟩
      simp only [Token.region, Region.stop, byteLength, Delimiter.byteLength_append,
        show '{'.utf8Size = 1 from rfl, show '}'.utf8Size = 1 from rfl] at lt ⊢
      omega
  | comment comment =>
    refine .inr (.comment ⟨start, cs⟩ rest placed comment (fun t ht => ?_) le lt)
    rcases apart t ht with own | before | behind
    · cases own
    · exact .inl before.2
    · exact .inr behind

/-- Cutting a source ends: steps beyond its length give no other tokens. Where no brace is without its
partner, the tokens cover the source. -/
theorem tokens_cover (source : List Char) :
    (∀ fuel, source.length ≤ fuel → tokensFrom fuel 0 source = tokens source) ∧
      ((tokens source).2 = none → Covers source (tokens source).1) := by
  refine ⟨fun fuel enough => tokensFrom_enough enough (Nat.le_refl _), fun good => ?_⟩
  have divided : Divided 0 source (tokens source).1 := tokensFrom_divided (Nat.le_refl _) good
  have whole : Region.Before source [] ⟨0, source⟩ := ⟨[], by simp, rfl⟩
  refine ⟨divided.ordered, fun t ht => ?_, fun n hn => ?_, fun r hr => ?_, fun r hr => ?_⟩
  · obtain ⟨start, cs, rest, here, found, own⟩ := divided.stretch_of whole ht
    have within := found.stretch.within found.placed.within t own
    exact ⟨within, within.span⟩
  · obtain ⟨start, cs, rest, here, found, among, -, le, lt⟩ :=
      divided.stretch_at whole (Nat.zero_le n) (by rwa [Nat.zero_add])
    exact found.accounted among le lt
  · obtain ⟨start, cs, rest, here, ⟨stretch, placed, -⟩, own⟩ := divided.stretch_of whole hr
    cases stretch with
    | text _ plain =>
      cases List.mem_singleton.1 own
      exact .inl plain
    | guarded =>
      cases List.mem_singleton.1 own
      exact .inr ⟨rfl, start, rfl, placed.within⟩
    | _ => simp at own
  · obtain ⟨start, cs, rest, here, ⟨stretch, placed, -⟩, own⟩ := divided.stretch_of whole hr
    cases stretch with
    | unterminated starts unclosed =>
      cases List.mem_singleton.1 own
      exact ⟨placed, _, _, rfl, starts, unclosed⟩
    | _ => simp at own

/-- A guarded brace, an expression, a comment, a tag with an expression and one without its end. -/
theorem tokens_cover_mixed :
    let source := "a \\\x7b\x7bb\x7d<!-- \x7bc -->d<p x=\x7b'>'\x7d>é<q 'e".toList
    source.length ≤ 99 ∧ tokensFrom 99 0 source = tokens source ∧
      (tokens source).1.map (fun t => t.region.toString) =
        ["a ", "\x7b", "b", "d", "<p x=\x7b'>'\x7d>", "é", "<q 'e"] ∧
      (tokens source).2 = none ∧ Covers source (tokens source).1 := by
  intro source
  have few : source.length ≤ 99 := by decide +kernel
  have good : (tokens source).2 = none := by decide +kernel
  exact ⟨few, (tokens_cover source).1 99 few, by decide +kernel, good, (tokens_cover source).2 good⟩

end Markup

end LiveTemplate
