/-
Where expressions stand. The tokens of a region lie in the text around it, so the grammar gives
expressions whose parts all lie there, and it reports its faults there; resolving names moves
nothing.
-/
import LiveTemplate.Proofs.Expr.Derivation
import LiveTemplate.Proofs.Expr.Resolved
import LiveTemplate.Proofs.Location.Regions

namespace LiveTemplate

open Text

variable {text : List Char}

namespace Grammar

/-! ## Tokens -/

/-- The text between the quotes of a string or template string. -/
def Token.body? : Token → Option (List Char)
  | .string body | .template body => some body
  | _ => none

/-- A token lies in a text, and so does what stands between its quotes. -/
structure Lexeme.Fits (text : List Char) (t : Lexeme) : Prop where
  span : t.span.Fits text
  body : ∀ body ∈ t.token.body?, Region.Within text ⟨t.span.start + 1, body⟩

theorem symbol?_body {cs : List Char} {t : Token} {n : Nat} (h : symbol? cs = some (t, n)) :
    t.body? = none := by
  have some := (symbol?_split h).1
  cases t <;> first | rfl | exact absurd rfl some

theorem token_located {start : Nat} {c : Char} {rest : List Char}
    (h : Region.Within text ⟨start, c :: rest⟩) :
    Locates text (fun found => ∀ body ∈ found.1.body?, Region.Within text ⟨start + 1, body⟩)
      (token start (Region.stop ⟨start, c :: rest⟩) c rest) := by
  unfold token
  split
  case h_1 found hs =>
    intro body hb
    rw [symbol?_body hs] at hb
    cases hb
  case h_2 =>
    refine .ite (fun quote => ?_) fun _ => .ite (fun _ => ?_) fun _ => .ite (fun _ => ?_) fun _ => ?_
    · have split := Delimiter.closeQuote_splits quote h
      have behind := h.rest
      rw [Delimiter.utf8Size_of_isQuote quote] at behind
      cases hc : Delimiter.closeQuote start c rest with
      | error unclosed => exact h.span
      | ok found =>
        obtain ⟨inside, after⟩ := found
        rw [hc] at split
        obtain rfl : rest = inside ++ after := split
        intro body hb
        obtain rfl : body = inside.dropLast := by
          dsimp only at hb
          split at hb <;> exact (Option.some.inj hb).symm
        exact behind.left.dropLast
    · exact fun body hb => nomatch hb
    · exact fun body hb => nomatch hb
    · exact h.front (a := [c])

/-- All tokens of a list lie in a text. -/
def Fit (text : List Char) (ts : List Lexeme) : Prop := ∀ t ∈ ts, t.Fits text

theorem Fit.nil : Fit text [] := by simp [Fit]

theorem Fit.head {t : Lexeme} {ts : List Lexeme} (h : Fit text (t :: ts)) : t.Fits text :=
  h t List.mem_cons_self

theorem Fit.suffix {ts rest : List Lexeme} (h : Fit text ts) (hs : rest <:+ ts) : Fit text rest :=
  fun t ht => h t (hs.subset ht)

theorem Fit.tail {t : Lexeme} {ts : List Lexeme} (h : Fit text (t :: ts)) : Fit text ts :=
  h.suffix (List.suffix_cons t ts)

theorem tokens_located : ∀ (fuel : Nat) {region : Region}, region.Within text →
    Locates text (Fit text) (tokens fuel region)
  | 0, _, _ => .nil
  | fuel + 1, region, h => by
    have skipped : (region.dropWhile isBlank).Within text := h.drop _
    rw [tokens]
    dsimp only
    generalize region.dropWhile isBlank = here at skipped ⊢
    obtain ⟨start, cs⟩ := here
    cases cs with
    | nil => exact Fit.nil
    | cons c rest =>
      refine (token_located skipped).bind fun found hb => ?_
      refine (tokens_located fuel (skipped.drop found.2)).bind fun others ho => ?_
      exact List.forall_mem_cons.2 ⟨⟨(skipped.take found.2).span, hb⟩, ho⟩

/-! ## Strings -/

/-- An escape takes some of the characters after the backslash. -/
theorem escape_located {pos : Nat} {rest : List Char} (h : Region.Within text ⟨pos, '\\' :: rest⟩) :
    Locates text (fun found => ∃ front, rest = front ++ found.2) (escape pos rest) := by
  cases rest with
  | nil => exact h.front (a := ['\\'])
  | cons c rest =>
    have bare : (fun found : Char × List Char => ∃ front, c :: rest = front ++ found.2) (c, rest) :=
      ⟨[c], rfl⟩
    unfold escape
    refine .ite (fun _ => bare) fun _ => .ite (fun _ => bare) fun _ => .ite (fun _ => bare)
      fun _ => .ite (fun _ => bare) fun _ => .ite (fun _ => bare) fun _ =>
      .ite (fun hu => ?_) fun _ => ?_
    · rw [beq_iff_eq.1 hu] at h
      have both : Span.Fits text ⟨pos, pos + 2⟩ := h.front (a := ['\\', 'u'])
      split
      · split
        · exact ⟨[_, _, _, _, _], rfl⟩
        · exact both
      · exact both
    · have both := h.front (a := ['\\', c])
      rwa [byteLength, byteLength, byteLength, ← Nat.add_assoc] at both

theorem unescape_located : ∀ (fuel : Nat) {pos : Nat} {cs : List Char},
    Region.Within text ⟨pos, cs⟩ → Locates text (fun _ => True) (unescape fuel pos cs) := by
  intro fuel
  induction fuel with
  | zero => exact fun _ => trivial
  | succ fuel ih =>
    intro pos cs h
    unfold unescape
    split
    case h_1 => trivial
    case h_2 => trivial
    case h_3 n pos rest hn =>
      cases hn
      refine (escape_located h).bind fun found hf => ?_
      obtain ⟨front, rfl⟩ := hf
      exact (ih h.rest.behind).bind fun _ _ => trivial
    case h_4 n pos c rest _ hn =>
      cases hn
      exact (ih h.rest).bind fun _ _ => trivial

theorem stringText_located {span : Span} {body : List Char}
    (h : Region.Within text ⟨span.start + 1, body⟩) :
    Locates text (fun _ => True) (stringText span body) :=
  (unescape_located _ h).map fun _ _ => trivial

end Grammar

/-! ## Expressions -/

/-- An expression and all expressions inside it lie in a text. -/
def Expr.Fits (text : List Char) (e : Expr) : Prop := ∀ x ∈ e.subterms, x.span.Fits text

theorem Expr.Fits.span {e : Expr} (h : e.Fits text) : e.span.Fits text := h e e.mem_subterms_self

theorem Expr.Fits.withSpan {e : Expr} (h : e.Fits text) {s : Span} (hs : s.Fits text) :
    (e.withSpan s).Fits text := by
  unfold Expr.Fits at h ⊢
  cases e <;> simp only [Expr.withSpan, Expr.subterms, List.forall_mem_cons] at h ⊢ <;>
    exact ⟨hs, h.2⟩

namespace Grammar

theorem wordExpr_fits {s : Span} (h : s.Fits text) (name : String) :
    (wordExpr s name).Fits text := by
  unfold wordExpr
  split <;> exact List.forall_mem_singleton.2 h

theorem subtermsParts_pushChar (c : Char) (parts : List TemplatePart) :
    subtermsParts (pushChar c parts) = subtermsParts parts := by
  unfold pushChar
  split <;> simp only [subtermsParts]

/-! ## The grammar -/

theorem tokenize_located {r : Region} (h : r.Within text) : Locates text (Fit text) (tokenize r) :=
  tokens_located _ h

theorem fit_of_tokenize {r : Region} {ts : List Lexeme} (h : r.Within text)
    (cut : tokenize r = .ok ts) : Fit text ts := by
  have fit := tokenize_located h
  rwa [cut] at fit

/-- A hole of a template string that lies in a text, and what follows it. -/
theorem hole_within {pos : Nat} {rest inside after : List Char}
    (h : Region.Within text ⟨pos, '$' :: '{' :: rest⟩)
    (hc : Delimiter.closeBrace (pos + 1) rest = .ok (inside, after)) :
    Region.Within text ⟨pos + 2, inside.dropLast⟩ ∧
      Region.Within text ⟨pos + 2 + byteLength inside, after⟩ := by
  have brace : Region.Within text ⟨pos + 1, '{' :: rest⟩ := h.rest
  have split := Delimiter.closeBrace_splits brace
  rw [hc] at split
  obtain rfl : rest = inside ++ after := split
  have behind : Region.Within text ⟨pos + 2, inside ++ after⟩ := brace.rest
  exact ⟨behind.left.dropLast, behind.right⟩

theorem escape_within {pos : Nat} {c : Char} {rest after : List Char}
    (h : Region.Within text ⟨pos, '\\' :: rest⟩) (he : escape pos rest = .ok (c, after)) :
    Region.Within text
      ⟨pos + 1 + byteLength (rest.take (rest.length - after.length)), after⟩ := by
  have located := escape_located h
  rw [he] at located
  obtain ⟨front, rfl⟩ := located
  exact h.rest.behind

theorem Scans.within {pos p : Nat} {cs rest : List Char} (h : Scans pos cs p rest)
    (hw : Region.Within text ⟨pos, cs⟩) : Region.Within text ⟨p, rest⟩ := by
  induction h with
  | start => exact hw
  | hole _ hc ih => exact (hole_within ih hc).2
  | escape _ he ih => exact escape_within ih he
  | char _ _ _ ih => exact ih.rest

mutual

/-- What is formed by tokens of a text lies in the text. -/
theorem Forms.fits : ∀ {ts : List Lexeme} {e : Expr} {rest : List Lexeme}, Forms ts e rest →
    Fit text ts → e.Fits text
  | _, _, _, .number _ _, h | _, _, _, .string _ _, h => List.forall_mem_singleton.2 h.head.span
  | _, _, _, .template ht hp, h =>
    List.forall_mem_cons.2 ⟨h.head.span, hp.fits (h.head.body _ (by rw [ht]; rfl))⟩
  | _, _, _, .word _ _, h => wordExpr_fits h.head.span _
  | _, _, _, .parentheses _ he _, h =>
    (he.fits h.tail).withSpan (h.head.span.union (h.tail.suffix he.suffix).head.span)
  | _, _, _, .array _ hi, h =>
    have items := hi.fits h.tail
    List.forall_mem_cons.2 ⟨h.head.span.union items.2, items.1⟩
  | _, _, _, .object _ he, h =>
    have entries := he.fits h.tail
    List.forall_mem_cons.2 ⟨h.head.span.union entries.2, entries.1⟩
  | _, _, _, .member _ ho _, h =>
    have object := ho.fits h
    List.forall_mem_cons.2 ⟨object.span.union (h.suffix ho.suffix).tail.head.span, object⟩
  | _, _, _, .index ho marked _ hi _, h => by
    have object := ho.fits h
    have inside := (h.suffix (marked.suffix.trans ho.suffix)).tail
    have closing := (inside.suffix hi.suffix).head
    simp only [Expr.Fits, Expr.subterms, List.forall_mem_cons, List.forall_mem_append]
    exact ⟨object.span.union closing.span, object, hi.fits inside⟩
  | _, _, _, .call hc marked _ ha, h => by
    have callee := hc.fits h
    have args := ha.fits (h.suffix (marked.suffix.trans hc.suffix)).tail
    simp only [Expr.Fits, Expr.subterms, List.forall_mem_cons, List.forall_mem_append]
    exact ⟨callee.span.union args.2, callee, args.1⟩
  | _, _, _, .cut he _, h => he.fits h
  | _, _, _, .unary _ he, h =>
    have operand := he.fits h.tail
    List.forall_mem_cons.2 ⟨h.head.span.union operand.span, operand⟩
  | _, _, _, .binary hl _ hr, h => by
    have left := hl.fits h
    have right := hr.fits (h.suffix hl.suffix).tail
    simp only [Expr.Fits, Expr.subterms, List.forall_mem_cons, List.forall_mem_append]
    exact ⟨left.span.union right.span, left, right⟩
  | _, _, _, .conditional ht _ hy _ hn, h => by
    have test := ht.fits h
    have behind := (h.suffix ht.suffix).tail
    have no := hn.fits (behind.suffix hy.suffix).tail
    simp only [Expr.Fits, Expr.subterms, List.forall_mem_cons, List.forall_mem_append]
    exact ⟨test.span.union no.span, test, hy.fits behind, no⟩
  | ts, _, _, .arrow hp hb, h => by
    have body := hb.fits (h.suffix (Parser.arrowParams_suffix hp))
    refine List.forall_mem_cons.2 ⟨Span.Fits.union ?_ body.span, body⟩
    -- the first token, which there is unless the body is all there is
    cases ts with
    | nil => exact body.span
    | cons t ts => exact h.head.span

theorem FormsList.fits : ∀ {closing : Token} {ts : List Lexeme} {es : List Expr} {s : Span}
    {rest : List Lexeme}, FormsList closing ts es s rest → Fit text ts →
      (∀ x ∈ subtermsAll es, x.span.Fits text) ∧ s.Fits text
  | _, _, _, _, _, .nil, h => ⟨by simp [subtermsAll], h.head.span⟩
  | _, _, _, _, _, .last he, h =>
    ⟨List.forall_mem_append.2 ⟨he.fits h, by simp [subtermsAll]⟩, (h.suffix he.suffix).head.span⟩
  | _, _, _, _, _, .cons he _ ho, h =>
    have others := ho.fits (h.suffix he.suffix).tail
    ⟨List.forall_mem_append.2 ⟨he.fits h, others.1⟩, others.2⟩

theorem FormsEntry.fits : ∀ {ts : List Lexeme} {key : String} {value : Expr} {rest : List Lexeme},
    FormsEntry ts key value rest → Fit text ts → value.Fits text
  | _, _, _, _, .pair _ _ hv, h => hv.fits h.tail.tail
  | _, _, _, _, .short _, h => List.forall_mem_singleton.2 h.head.span

theorem FormsEntries.fits : ∀ {ts : List Lexeme} {entries : List (String × Expr)} {s : Span}
    {rest : List Lexeme}, FormsEntries ts entries s rest → Fit text ts →
      (∀ x ∈ subtermsEntries entries, x.span.Fits text) ∧ s.Fits text
  | _, _, _, _, .nil _, h => ⟨by simp [subtermsEntries], h.head.span⟩
  | _, _, _, _, .last he _, h =>
    ⟨List.forall_mem_append.2 ⟨he.fits h, by simp [subtermsEntries]⟩, (h.suffix he.suffix).head.span⟩
  | _, _, _, _, .cons he _ ho, h =>
    have others := ho.fits (h.suffix he.suffix).tail
    ⟨List.forall_mem_append.2 ⟨he.fits h, others.1⟩, others.2⟩

theorem FormsParts.fits : ∀ {pos : Nat} {cs : List Char} {parts : List TemplatePart},
    FormsParts pos cs parts → Region.Within text ⟨pos, cs⟩ →
      ∀ x ∈ subtermsParts parts, x.span.Fits text
  | _, _, _, .done _ _, _ => by simp [subtermsParts]
  | _, _, _, .hole hc cut he ho, h =>
    have within := hole_within h hc
    List.forall_mem_append.2 ⟨he.fits (fit_of_tokenize within.1 cut), ho.fits within.2⟩
  | _, _, _, .escape he ho, h => by
    rw [subtermsParts_pushChar]
    exact ho.fits (escape_within h he)
  | _, _, _, .char ho, h => by
    rw [subtermsParts_pushChar]
    exact ho.fits h.rest

end

/-- The faults of a region of a text lie in the text. -/
theorem Faults.located {r : Region} {fault : Fault} (h : Faults r fault) (hw : r.Within text) :
    fault.span.Fits text := by
  have token {r : Region} (hw : r.Within text) {t : Lexeme} : HasToken r t → t.Fits text :=
    fun ⟨_, cut, mem⟩ => fit_of_tokenize hw cut t mem
  have scanned {r : Region} (hw : r.Within text) {p : Nat} {rest : List Char} :
      ScansIn r p rest → Region.Within text ⟨p, rest⟩ :=
    fun ⟨_, _, met, template, scans⟩ => scans.within ((token hw met).body _ (by rw [template]; rfl))
  induction h with
  | lexing failed =>
    have located := tokenize_located hw
    rwa [failed] at located
  | missing => exact hw.stop.empty
  | mismatch _ met | braced met | number met => exact (token hw met).span
  | string met string failed =>
    have located := stringText_located ((token hw met).body _ (by rw [string]; rfl))
    rwa [failed] at located
  | escape here failed =>
    have located := escape_located (scanned hw here)
    rwa [failed] at located
  | unclosed here _ => exact (scanned hw here).rest.front (a := ['{'])
  | hole here hc _ ih => exact ih (hole_within (scanned hw here) hc).1

end Grammar

theorem Expr.parse_located {region : Region} (h : region.Within text) :
    Locates text (Expr.Fits text) (Expr.parse region) := by
  cases hp : Expr.parse region with
  | error fault => exact (Expr.faults_of_parse hp).located h
  | ok e =>
    obtain ⟨ts, cut, forms⟩ := Expr.forms_of_parse hp
    exact forms.fits (Grammar.fit_of_tokenize h cut)

/-! ## Resolution -/

mutual

/-- Resolution keeps the places of an expression, and finds fault with nothing outside of it. -/
theorem Expr.resolve_located (scope : NameScope) : ∀ e : Expr, e.Fits text →
    Locates text (Expr.Fits text) (e.resolve scope)
  | .literal .., h | .root .., h => h
  | .self s, h | .name s n, h => List.forall_mem_singleton.2 h.span
  | .template s parts, h => by
    rw [Expr.resolve]
    have hp : ∀ x ∈ subtermsParts parts, x.span.Fits text := (List.forall_mem_cons.1 h).2
    exact (resolveParts_located scope parts hp).map fun parts' hp' =>
      List.forall_mem_cons.2 ⟨h.span, hp'⟩
  | .member s o p optional, h => by
    have ho : o.Fits text := (List.forall_mem_cons.1 h).2
    by_cases value : o.isSelf = false ∨ optional = true
    · rw [Expr.resolve_member_object value]
      exact (o.resolve_located scope ho).bind fun o' ho' => List.forall_mem_cons.2 ⟨h.span, ho'⟩
    · obtain ⟨t, rfl, rfl⟩ := Expr.self_of_not value
      exact List.forall_mem_singleton.2 h.span
  | .index s o i optional, h => by
    simp only [Expr.Fits, Expr.subterms, List.forall_mem_cons, List.forall_mem_append] at h
    obtain ⟨hs, ho, hi⟩ := h
    rw [Expr.resolve]
    refine (o.resolve_located scope ho).bind fun o' ho' =>
      (i.resolve_located scope hi).bind fun i' hi' => ?_
    exact List.forall_mem_cons.2 ⟨hs, List.forall_mem_append.2 ⟨ho', hi'⟩⟩
  | .call s callee args, h => by
    simp only [Expr.Fits, Expr.subterms, List.forall_mem_cons, List.forall_mem_append] at h
    obtain ⟨hs, hc, ha⟩ := h
    have hargs := resolveAll_located scope args ha
    have whole (n : String) (args' : List Expr) (ha' : ∀ x ∈ subtermsAll args', x.span.Fits text) :
        (Expr.method s n args').Fits text ∧ (Expr.function s n args').Fits text :=
      ⟨List.forall_mem_cons.2 ⟨hs, ha'⟩, List.forall_mem_cons.2 ⟨hs, ha'⟩⟩
    have at_ : callee.span.Fits text := Expr.Fits.span hc
    cases callee with
    | name t n =>
      rw [Expr.resolve]
      refine hargs.bind fun args' ha' => .ite (fun _ => at_) fun _ => ?_
      exact .ite (fun _ => (whole n args' ha').2) fun _ => (whole n args' ha').1
    | member t o p optional =>
      have ho : o.Fits text := (List.forall_mem_cons.1 hc).2
      have called (o' : Expr) (args' : List Expr) (ho' : o'.Fits text)
          (ha' : ∀ x ∈ subtermsAll args', x.span.Fits text) :
          (Expr.call s (.member t o' p optional) args').Fits text :=
        List.forall_mem_cons.2 ⟨hs, List.forall_mem_append.2 ⟨List.forall_mem_cons.2 ⟨at_, ho'⟩, ha'⟩⟩
      cases o with
      | self u =>
        cases optional with
        | false => exact hargs.bind fun args' ha' => (whole p args' ha').1
        | true =>
          refine hargs.bind fun args' ha' => called (.root u .component) args' ?_ ha'
          exact List.forall_mem_singleton.2 ho.span
      | name u n =>
        rw [Expr.resolve]
        refine hargs.bind fun args' ha' => .ite (fun _ => ?_) fun _ => ?_
        · exact .ite (fun _ => (whole _ args' ha').2) fun _ => at_
        · exact called (.root u _) args' (List.forall_mem_singleton.2 ho.span) ha'
      | _ =>
        exact hargs.bind fun args' ha' => (Expr.resolve_located scope _ ho).bind fun o' ho' =>
          called o' args' ho' ha'
    | _ =>
      -- nothing else can be called
      exact hargs.bind fun _ _ => at_
  | .method s n args, h => by
    rw [Expr.resolve]
    have ha : ∀ x ∈ subtermsAll args, x.span.Fits text := (List.forall_mem_cons.1 h).2
    exact (resolveAll_located scope args ha).bind fun args' ha' =>
      List.forall_mem_cons.2 ⟨h.span, ha'⟩
  | .function s n args, h => by
    rw [Expr.resolve]
    have ha : ∀ x ∈ subtermsAll args, x.span.Fits text := (List.forall_mem_cons.1 h).2
    exact (resolveAll_located scope args ha).bind fun args' ha' =>
      List.forall_mem_cons.2 ⟨h.span, ha'⟩
  | .unary s op e, h => by
    rw [Expr.resolve]
    have he : e.Fits text := (List.forall_mem_cons.1 h).2
    exact (e.resolve_located scope he).bind fun e' he' => List.forall_mem_cons.2 ⟨h.span, he'⟩
  | .binary s op l r, h => by
    simp only [Expr.Fits, Expr.subterms, List.forall_mem_cons, List.forall_mem_append] at h
    obtain ⟨hs, hl, hr⟩ := h
    rw [Expr.resolve]
    refine (l.resolve_located scope hl).bind fun l' hl' =>
      (r.resolve_located scope hr).bind fun r' hr' => ?_
    exact List.forall_mem_cons.2 ⟨hs, List.forall_mem_append.2 ⟨hl', hr'⟩⟩
  | .conditional s c t e, h => by
    simp only [Expr.Fits, Expr.subterms, List.forall_mem_cons, List.forall_mem_append] at h
    obtain ⟨hs, hc, ht, he⟩ := h
    rw [Expr.resolve]
    refine (c.resolve_located scope hc).bind fun c' hc' =>
      (t.resolve_located scope ht).bind fun t' ht' =>
      (e.resolve_located scope he).bind fun e' he' => ?_
    exact List.forall_mem_cons.2 ⟨hs, List.forall_mem_append.2 ⟨hc',
      List.forall_mem_append.2 ⟨ht', he'⟩⟩⟩
  | .array s items, h => by
    rw [Expr.resolve]
    have hi : ∀ x ∈ subtermsAll items, x.span.Fits text := (List.forall_mem_cons.1 h).2
    exact (resolveAll_located scope items hi).bind fun items' hi' =>
      List.forall_mem_cons.2 ⟨h.span, hi'⟩
  | .object s entries, h => by
    rw [Expr.resolve]
    have he : ∀ x ∈ subtermsEntries entries, x.span.Fits text := (List.forall_mem_cons.1 h).2
    exact (resolveEntries_located scope entries he).bind fun entries' he' =>
      List.forall_mem_cons.2 ⟨h.span, he'⟩
  | .arrow s params body, h => h.span

theorem resolveAll_located (scope : NameScope) : ∀ es : List Expr,
    (∀ x ∈ subtermsAll es, x.span.Fits text) →
    Locates text (fun es' => ∀ x ∈ subtermsAll es', x.span.Fits text) (resolveAll scope es)
  | [], h => h
  | e :: rest, h => by
    obtain ⟨he, hr⟩ := List.forall_mem_append.1 h
    rw [resolveAll]
    exact (e.resolve_located scope he).bind fun e' he' =>
      (resolveAll_located scope rest hr).bind fun rest' hr' =>
        List.forall_mem_append.2 ⟨he', hr'⟩

theorem resolveEntries_located (scope : NameScope) : ∀ es : List (String × Expr),
    (∀ x ∈ subtermsEntries es, x.span.Fits text) →
    Locates text (fun es' => ∀ x ∈ subtermsEntries es', x.span.Fits text) (resolveEntries scope es)
  | [], h => h
  | (k, e) :: rest, h => by
    obtain ⟨he, hr⟩ := List.forall_mem_append.1 h
    rw [resolveEntries]
    exact (e.resolve_located scope he).bind fun e' he' =>
      (resolveEntries_located scope rest hr).bind fun rest' hr' =>
        List.forall_mem_append.2 ⟨he', hr'⟩

theorem resolveParts_located (scope : NameScope) : ∀ parts : List TemplatePart,
    (∀ x ∈ subtermsParts parts, x.span.Fits text) →
    Locates text (fun parts' => ∀ x ∈ subtermsParts parts', x.span.Fits text)
      (resolveParts scope parts)
  | [], h => h
  | .text t :: rest, h => by
    rw [resolveParts]
    exact (resolveParts_located scope rest h).bind fun rest' hr' => hr'
  | .hole e :: rest, h => by
    obtain ⟨he, hr⟩ := List.forall_mem_append.1 h
    rw [resolveParts]
    exact (e.resolve_located scope he).bind fun e' he' =>
      (resolveParts_located scope rest hr).bind fun rest' hr' =>
        List.forall_mem_append.2 ⟨he', hr'⟩

end

theorem Expr.resolveHandler_located (scope : NameScope) {e : Expr} (h : e.Fits text) :
    Locates text (fun handler => handler.expr.Fits text) (e.resolveHandler scope) := by
  unfold Expr.resolveHandler
  split
  · have body := (List.forall_mem_cons.1 h).2
    exact (Expr.resolve_located _ _ body).bind fun body' hb' =>
      List.forall_mem_cons.2 ⟨h.span, hb'⟩
  · exact (e.resolve_located scope h).bind fun e' he' => he'

end LiveTemplate
