/-
Templates without expressions, compiled and rendered. Such a source is cut into the tokens of its
parts, each tag is read as it stands, and rendering the template gives the source back whatever the
context is, but for the values of attributes, which are escaped.
-/
import LiveTemplate.Engine
import LiveTemplate.Proofs.Markup.Values
import LiveTemplate.Proofs.Render.Preservation

namespace LiveTemplate

open Text Markup

/-! ## Tokens -/

namespace Markup

/-- A text is cut into the given tokens, however many steps beyond its length are allowed. -/
def CutInto (pos : Nat) (cs : List Char) (tokens : List Token) : Prop :=
  ∀ fuel, cs.length ≤ fuel → tokensFrom fuel pos cs = (tokens, none)

theorem cutInto_nil (pos : Nat) : CutInto pos [] []
  | 0, _ | _ + 1, _ => rfl

/-- One token in front, which a step of the lexer gives. -/
theorem CutInto.step {pos : Nat} {read rest : List Char} {token : Token} {tokens : List Token}
    (hn : read ≠ []) (h : ∀ fuel, tokensFrom (fuel + 1) pos (read ++ rest) =
      let others := tokensFrom fuel (pos + byteLength read) rest
      (token :: others.1, others.2))
    (hc : CutInto (pos + byteLength read) rest tokens) : CutInto pos (read ++ rest) (token :: tokens) := by
  intro fuel hf
  have one := List.length_pos_of_ne_nil hn
  rw [List.length_append] at hf
  obtain ⟨fuel, rfl⟩ : ∃ n, fuel = n + 1 := ⟨fuel - 1, by omega⟩
  rw [h, hc fuel (by omega)]

/-- What ends a run of text: the end of the source, a tag, or a brace that no backslash guards. -/
def EndsText (text rest : List Char) : Prop :=
  rest = [] ∨ (∃ more, rest = '<' :: more ∧ startsTag more = true) ∨
    ∃ more, rest = '{' :: more ∧ text.getLast? ≠ some '\\'

section

variable {cs rest : List Char}

theorem EndsText.of_append (before : List Char) (h : EndsText (before ++ cs) rest) :
    EndsText cs rest := by
  refine h.imp_right (Or.imp_right ?_)
  rintro ⟨more, eq, unguarded⟩
  refine ⟨more, eq, fun guard => unguarded ?_⟩
  rw [List.getLast?_append, guard]
  rfl

/-- No backslash at the end of a text guards a brace behind it. -/
theorem not_guarded {c : Char} (h : isPlainText (c :: cs) = true) (hr : EndsText (c :: cs) rest) :
    ¬ (c = '\\' ∧ (cs ++ rest).head? = some '{') := by
  rintro ⟨rfl, brace⟩
  rcases cs with _ | ⟨d, cs⟩
  · rcases hr with rfl | ⟨more, rfl, -⟩ | ⟨more, rfl, unguarded⟩
    · simp at brace
    · simp at brace
    · simp at unguarded
  · exact (isPlainText_cons (isPlainText_cons h).2.2).1 (by simpa using brace)

theorem startsTag_append (hr : EndsText cs rest) : startsTag (cs ++ rest) = startsTag cs := by
  rcases cs with _ | ⟨c, cs⟩
  · rcases hr with rfl | ⟨more, rfl, -⟩ | ⟨more, rfl, -⟩ <;> rfl
  · rfl

/-- A run of text goes as far as the text is plain. -/
theorem textRun_plain : ∀ {cs : List Char}, EndsText cs rest → isPlainText cs = true →
    textRun (cs ++ rest) = cs
  | [], hr, _ => by
    rcases hr with rfl | ⟨more, rfl, tag⟩ | ⟨more, rfl, -⟩
    · rfl
    · simp [textRun, tag]
    · simp [textRun]
  | c :: cs, hr, h => by
    obtain ⟨brace, tag, others⟩ := isPlainText_cons h
    have ends : EndsText cs rest := .of_append [c] hr
    rw [List.cons_append, textRun, textRun_plain ends others, if_neg]
    simp only [Bool.or_eq_true, Bool.and_eq_true, beq_iff_eq, startsTag_append ends, not_or]
    exact ⟨⟨brace, not_guarded h hr⟩, tag⟩

/-- A run of text before what ends it. -/
theorem CutInto.text {pos : Nat} {tokens : List Token} (hn : cs ≠ []) (h : isPlainText cs = true)
    (hr : EndsText cs rest) (hc : CutInto (pos + byteLength cs) rest tokens) :
    CutInto pos (cs ++ rest) (.text ⟨pos, cs⟩ :: tokens) := by
  obtain ⟨c, cs, rfl⟩ := List.exists_cons_of_ne_nil hn
  obtain ⟨brace, tag, others⟩ := isPlainText_cons h
  have ends : EndsText cs rest := .of_append [c] hr
  refine CutInto.step hn (fun fuel => ?_) hc
  have guard : (c == '\\' && (cs ++ rest).head? == some '{') = false := by
    rw [Bool.and_eq_false_imp]
    intro slash
    simpa [eq_of_beq slash] using not_guarded h hr
  have comment : (c == '<' && ['!', '-', '-'].isPrefixOf (cs ++ rest)) = false := by
    rw [Bool.and_eq_false_imp]
    intro bracket
    by_contra found
    obtain ⟨more, split⟩ : ['!', '-', '-'] <+: cs ++ rest := by simpa using found
    refine tag ⟨eq_of_beq bracket, ?_⟩
    rw [← startsTag_append ends, ← split]
    rfl
  have tag : (c == '<' && startsTag (cs ++ rest)) = false := by
    rw [startsTag_append ends]
    simpa using tag
  rw [List.cons_append, tokensFrom]
  simp only [guard, comment, tag, Bool.false_eq_true, if_false, beq_iff_eq, brace,
    textRun_plain ends others]
  rw [← List.cons_append, List.drop_left]

end

end Markup

/-! ## Pages -/

theorem toHtmlAll_append : ∀ a b : List Node, toHtmlAll (a ++ b) = toHtmlAll a ++ toHtmlAll b
  | [], b => by simp [toHtmlAll]
  | n :: a, b => by
    rw [List.cons_append, toHtmlAll, toHtmlAll_append a b, toHtmlAll, String.append_assoc]

/-- Parts after others, which leave a context. -/
theorem Items.render_append (t : Template) (scope : Scope) (b : List Item) :
    ∀ (a : List Item) (p : Place) (c : Context) {nodes : List Node} {c' : Context},
      Items.render t p scope a c = (nodes, c') → Items.render t p scope (a ++ b) c =
        (nodes ++ (Items.render t (p + Items.room a) scope b c').1,
          (Items.render t (p + Items.room a) scope b c').2) := by
  intro a
  induction a with
  | nil =>
    rintro p c nodes c' ⟨⟩
    rfl
  | cons i a ih =>
    rintro p c nodes c' ⟨⟩
    have rest := ih (p + i.room) (i.render t p scope c).2 rfl
    show ((i.render t p scope c).1 :: (Items.render t (p + i.room) scope (a ++ b) _).1,
      (Items.render t (p + i.room) scope (a ++ b) _).2) = _
    rw [rest, Items.room, ← Place.add_assoc]
    rfl

/-- Parts that render to a page whatever the context is, which they leave as it is. -/
def Items.Show (items : List Item) (page : List Char) : Prop :=
  ∀ (t : Template) (p : Place) (scope : Scope) (c : Context), ∃ nodes,
    Items.render t p scope items c = (nodes, c) ∧ (toHtmlAll nodes).toList = page

namespace Items.Show

theorem nil : Items.Show [] [] := fun _ _ _ _ => ⟨[], rfl, rfl⟩

theorem text (s : List Char) : Items.Show [.text (String.ofList s)] s :=
  fun _ _ _ _ => ⟨[.html (String.ofList s)], rfl, by simp [toHtmlAll, Node.toHtml]⟩

theorem append {a b : List Item} {x y : List Char} (ha : Items.Show a x) (hb : Items.Show b y) :
    Items.Show (a ++ b) (x ++ y) := by
  intro t p scope c
  obtain ⟨nodes, first, html⟩ := ha t p scope c
  obtain ⟨others, second, html'⟩ := hb t (p + Items.room a) scope c
  refine ⟨nodes ++ others, by rw [Items.render_append t scope b a p c first, second], ?_⟩
  rw [toHtmlAll_append, String.toList_append, html, html']

end Items.Show

/-- What an attribute of a literal adds to its element. -/
def Literal.feature : String × Option String → Feature
  | (name, some value) => .plain name value
  | (name, none) => .flag name

theorem mapM_feature (knows : String → Bool) (names : List String) :
    ∀ (pos : Nat) (attrs : List (String × Option String)),
      (attributesAt pos (attrs.map fun a => (a.1, Literal.setting a.2))).mapM (feature? knows names) =
        some (attrs.map Literal.feature)
  | _, [] => rfl
  | pos, (name, value) :: attrs => by
    rw [List.map_cons, attributesAt, List.mapM_cons, mapM_feature knows names]
    cases value <;> rfl

theorem Features.render_literal (t : Template) (scope : Scope) (c : Context) :
    ∀ (attrs : List (String × Option String)) (p : Place) (e : Element),
      Features.render t p scope e (attrs.map Literal.feature) c =
        ({ e with attrs := e.attrs ++ attrs }, c)
  | [], p, e => by
    rw [List.append_nil]
    rfl
  | (name, value) :: attrs, p, e => by
    have first : (Literal.feature (name, value)).render t p scope e c =
        ({ e with attrs := e.attrs ++ [(name, value)] }, c) := by
      cases value <;> rfl
    show Features.render t _ scope ((Literal.feature (name, value)).render t p scope e c).1
      (attrs.map Literal.feature) ((Literal.feature (name, value)).render t p scope e c).2 = _
    rw [first, render_literal t scope c attrs]
    simp

theorem attributeText_escaped (a : String × Option String) :
    (attributeText a).toList = attributeSource (withValue escapeText a) := by
  obtain ⟨name, _ | value⟩ := a
  · simp [attributeText, attributeSource, withValue]
  · simp [attributeText, quotedAttribute, attributeSource, withValue]

/-- An element of a literal renders to its tags, with escaped values, around the page of its children. -/
theorem Items.Show.element (name : String) (key : Option String)
    (attrs : List (String × Option String)) {children : List Item} {inside : List Char}
    (hc : Items.Show children inside) :
    Items.Show [.element name key (attrs.map Literal.feature) children]
      ('<' :: (tagBody name (attrs.map (withValue escapeText)) ++ '>' :: if isVoid name then []
        else inside ++ '<' :: '/' :: (name.toList ++ ['>']))) := by
  intro t p scope c
  obtain ⟨nodes, rendered, html⟩ :=
    hc t (p + (.one + Features.room (attrs.map Literal.feature))) scope c
  refine ⟨[.element { Element.plain name key with attrs := attrs } nodes], ?_, ?_⟩
  · have head := Features.render_literal t scope c attrs (p + .one) (.plain name key)
    show ([Node.element (Features.render t (p + .one) scope (.plain name key)
      (attrs.map Literal.feature) c).1 _], _) = _
    rw [head, rendered]
    rfl
  · have opening : (Element.openTag { Element.plain name key with attrs := attrs }).toList =
        '<' :: (tagBody name (attrs.map (withValue escapeText)) ++ ['>']) := by
      simp only [Element.openTag, Element.plain, tagBody, String.toList_append,
        String.toList_join, List.flatMap_map, List.map_nil, List.flatMap_nil,
        List.flatMap_congr fun a _ => attributeText_escaped a]
      simp
    rw [toHtmlAll, toHtmlAll, String.append_empty, Node.toHtml]
    split
    case isTrue void =>
      have void : isVoid name = true := void
      rw [opening, if_pos void]
    case isFalse paired =>
      have paired : ¬ isVoid name = true := paired
      simp only [String.toList_append, opening, html, if_neg paired]
      simp [Element.plain]

/-! ## Compiling -/

/-- A written part is understood: it is cut into tokens, these are read as pieces, and the outline of
the pieces renders to a page. A run of text has to be ended by what follows. -/
structure Understood (written page : List Char) (isText : Bool) (pos : Nat)
    (tokens : List Markup.Token) (pieces : List Piece)
    (outline : (String → Bool) → List String → Option (List Item)) : Prop where
  cut : ∀ {rest : List Char} {others : List Markup.Token}, (isText = true → EndsText written rest) →
    CutInto (pos + byteLength written) rest others →
      CutInto pos (written ++ rest) (tokens ++ others)
  read : ∀ source : List Char, tokens.mapM (Piece.ofToken source) = .ok pieces
  shown : ∀ knows names, ∃ items, outline knows names = some items ∧ Items.Show items page

namespace Understood

theorem text {P : String × Option String → Prop} {pos : Nat} {text : List Char}
    (h : (Literal.text text).Made P) :
    Understood text text true pos [.text ⟨pos, text⟩] [.text text]
      fun _ _ => some (textItems text) := by
  obtain ⟨nonempty, plain, kept⟩ := h
  refine ⟨fun ends hc => .text nonempty plain (ends rfl) hc, fun _ => rfl, fun _ _ => ⟨_, rfl, ?_⟩⟩
  rw [textItems, if_neg (by simpa using kept)]
  exact .text text

theorem declaration {P : String × Option String → Prop} {pos : Nat} {inside : List Char}
    (h : (Literal.declaration inside).Made P) :
    Understood (Literal.declaration inside).source (Literal.declaration inside).source false pos
      [.tag ⟨pos, (Literal.declaration inside).source⟩]
      [.declaration (String.ofList (Literal.declaration inside).source)]
      fun _ _ => some [.text (String.ofList (Literal.declaration inside).source)] := by
  obtain ⟨free, comment⟩ := h
  refine ⟨fun {rest others} _ hc => ?_, fun _ => rfl, fun _ _ => ⟨_, rfl, .text _⟩⟩
  have body : Delimiter.Passes (.tag pos) ('!' :: inside) := by
    refine Delimiter.passes_tag pos ?_
    rw [List.forall_mem_cons]
    refine ⟨by decide, fun c hc hm => free c hc ?_⟩
    simp only [List.mem_cons, List.not_mem_nil, or_false] at hm ⊢
    tauto
  refine CutInto.step (List.cons_ne_nil _ _) (tokensFrom_tag body rfl fun found => ?_) hc
  rw [List.cons_append, List.cons_prefix_cons] at found
  rcases inside with _ | ⟨a, _ | ⟨b, inside⟩⟩
  · simp [List.cons_prefix_cons] at found
  · simp [List.cons_prefix_cons] at found
  · refine comment ?_
    simpa [List.cons_prefix_cons] using found.2

/-- A tag that is no declaration is read as a piece. -/
theorem ofToken_tag {pos : Nat} {c : Char} {body : List Char} (hc : c ≠ '!') {tag : Tag}
    (h : ∀ tail, Tag.parse ⟨pos, '<' :: c :: body⟩ tail = .ok tag) (source : List Char) :
    Piece.ofToken source (.tag ⟨pos, '<' :: c :: body⟩) =
      .ok (if tag.isClosing then .closeTag tag else .openTag tag) := by
  rw [Piece.ofToken, if_neg (by simpa using hc), h]
  rfl

/-- The opening tag of a literal, before anything. -/
theorem openTag (pos : Nat) {name : String} (hn : Page.isTagName name = true)
    {attrs : List (String × Option String)} (ha : ∀ a ∈ attrs, ClosedAttribute a) :
    let t := Literal.openTag name attrs
    (∀ {rest others}, CutInto (pos + byteLength t.source) rest others →
      CutInto pos (t.source ++ rest) (.tag ⟨pos, t.source⟩ :: others)) ∧
    ∀ source, Piece.ofToken source (.tag ⟨pos, t.source⟩) = .ok (.openTag (t.tag pos)) := by
  intro t
  have formed : t.WellFormed := Literal.openTag_wellFormed hn ha
  refine ⟨CutInto.step (List.cons_ne_nil _ _) fun fuel => formed.tokensFrom fuel pos _,
    fun source => ?_⟩
  have parsed := formed.parse pos
  obtain ⟨c, chars, start, letter, -⟩ := Page.isTagName_chars hn
  have mark : c ≠ '!' := by
    rintro rfl
    cases letter
  have front : t.source = '<' :: c :: (chars ++ attrs.flatMap attributeSource ++ ['>']) := by
    rw [OpenTag.source, Literal.openTag_body, tagBody, start]
    rfl
  rw [front] at parsed ⊢
  rw [ofToken_tag mark parsed]
  rfl

/-- A closing tag, before anything. -/
theorem closeTag (pos : Nat) {name : String} (hn : Page.isTagName name = true) :
    ∃ (token : Markup.Token) (tag : Tag),
      (∀ {rest others}, CutInto (pos + byteLength ('<' :: '/' :: (name.toList ++ ['>'])))
        rest others →
        CutInto pos ('<' :: '/' :: (name.toList ++ ['>']) ++ rest) (token :: others)) ∧
      (∀ source, Piece.ofToken source token = .ok (.closeTag tag)) ∧ tag.name = name := by
  obtain ⟨tag, parsed, hname, closes⟩ := parse_closeTag pos hn
  obtain ⟨-, -, -, -, chars⟩ := Page.isTagName_chars hn
  have body : Delimiter.Passes (.tag pos) ('/' :: name.toList) := by
    refine Delimiter.passes_tag pos ?_
    rw [List.forall_mem_cons]
    exact ⟨by decide, fun c hc => Page.not_mem_of_test (by decide) (chars c hc).1⟩
  refine ⟨.tag ⟨pos, '<' :: '/' :: (name.toList ++ ['>'])⟩, tag,
    CutInto.step (List.cons_ne_nil _ _) (tokensFrom_tag body rfl ?_), fun source => ?_, hname⟩
  · simp [List.cons_prefix_cons]
  · rw [ofToken_tag (by decide) parsed, closes]
    rfl

end Understood

/-- Whatever is not text ends the text before it. -/
theorem Literals.Made.endsText {ls : List Literal} (h : Literals.Made ClosedAttribute ls)
    {before rest : List Char} (hl : ls.head?.any Literal.isText = false)
    (hr : EndsText (before ++ Literals.source ls) rest) :
    EndsText before (Literals.source ls ++ rest) := by
  rcases ls with _ | ⟨l, ls⟩
  · rwa [Literals.source, List.append_nil] at hr
  · refine .inr (.inl ?_)
    cases l with
    | text text => cases hl
    | declaration inside => exact ⟨_, rfl, rfl⟩
    | element name attrs children =>
      obtain ⟨c, chars, start, letter, -⟩ := Page.isTagName_chars h.1.1
      refine ⟨_, rfl, ?_⟩
      rw [tagBody, start]
      simp [startsTag, letter]

mutual

/-- Every part of a literal source is understood. -/
theorem Literal.understood : ∀ (l : Literal) (pos : Nat), l.Made ClosedAttribute →
    ∃ (tokens : List Markup.Token) (phrase : Phrase),
      Understood l.source (l.mapValues escapeText).source l.isText pos tokens phrase.pieces
        fun knows names => phrase.outline knows names
  | .text text, pos, h => ⟨_, .text text, .text h⟩
  | .declaration inside, pos, h => ⟨_, .declaration _, .declaration h⟩
  | .element name attrs children, pos, ⟨hn, ha, void, inner⟩ => by
    let t := Literal.openTag name attrs
    have alone : (t.tag pos).standsAlone = isVoid name := Bool.false_or _
    have features (knows : String → Bool) (names : List String) :
        (t.tag pos).attributes.mapM (feature? knows names) = some (attrs.map Literal.feature) :=
      mapM_feature knows names _ attrs
    obtain ⟨cut, read⟩ := Understood.openTag pos hn ha
    obtain ⟨tokens, forest, body⟩ := Literals.understood children (pos + byteLength t.source) inner
    rw [Literal.mapValues, Literal.source_element, Literal.source]
    by_cases hv : isVoid name = true
    · rw [if_pos hv, if_pos hv, List.append_nil]
      refine ⟨[.tag ⟨pos, t.source⟩], .leaf (t.tag pos) (alone.trans hv), fun _ hc => cut hc,
        fun source => ?_, fun knows names => ?_⟩
      · rw [List.mapM_cons, read]
        rfl
      · refine ⟨[.element name (Builder.elementKey (t.tag pos)) (attrs.map Literal.feature) []], ?_, ?_⟩
        · rw [Phrase.outline, features]
          rfl
        · have shown := Items.Show.element name (Builder.elementKey (t.tag pos)) attrs .nil
          rwa [if_pos hv] at shown
    · rw [if_neg hv, if_neg hv]
      obtain ⟨token', tag', cut', read', hname'⟩ := Understood.closeTag
        (pos + byteLength t.source + byteLength (Literals.source children)) hn
      refine ⟨.tag ⟨pos, t.source⟩ :: (tokens ++ [token']),
        .element (t.tag pos) (alone.trans (by simpa using hv)) forest tag' hname',
        fun {rest others} _ hc => ?_, fun source => ?_, fun knows names => ?_⟩
      · rw [Delimiter.byteLength_append, Delimiter.byteLength_append, ← Nat.add_assoc,
          ← Nat.add_assoc] at hc
        simpa using cut (body.cut (fun _ => .inr (.inl ⟨_, rfl, rfl⟩)) (cut' hc))
      · rw [List.mapM_cons, read, List.mapM_append, body.read, List.mapM_cons, read']
        rfl
      · obtain ⟨items, outline, shown⟩ := body.shown knows names
        refine ⟨[.element name (Builder.elementKey (t.tag pos)) (attrs.map Literal.feature) items],
          ?_, ?_⟩
        · simp only [Phrase.outline, features, outline, Option.bind_eq_bind, Option.bind_some]
          rfl
        · have shown := Items.Show.element name (Builder.elementKey (t.tag pos)) attrs shown
          rwa [if_neg hv] at shown

theorem Literals.understood : ∀ (ls : List Literal) (pos : Nat), Literals.Made ClosedAttribute ls →
    ∃ (tokens : List Markup.Token) (forest : List Phrase),
      Understood (Literals.source ls) (Literals.source (Literals.mapValues escapeText ls)) true pos
        tokens (Phrases.pieces forest)
        fun knows names => Phrases.outline knows names forest
  | [], pos, _ =>
    ⟨[], [], fun _ hc => hc, fun _ => rfl, fun _ _ => ⟨[], rfl, .nil⟩⟩
  | l :: rest, pos, ⟨first, separate, others⟩ => by
    obtain ⟨tokens, phrase, here⟩ := l.understood pos first
    obtain ⟨tokens', forest, there⟩ := Literals.understood rest (pos + byteLength l.source) others
    refine ⟨tokens ++ tokens', phrase :: forest, fun ends hc => ?_, fun source => ?_,
      fun knows names => ?_⟩
    · rw [Literals.source, Delimiter.byteLength_append, ← Nat.add_assoc] at hc
      rw [Literals.source, List.append_assoc, List.append_assoc]
      exact here.cut (fun isText => others.endsText (separate isText) (ends rfl))
        (there.cut (fun _ => .of_append _ (ends rfl)) hc)
    · rw [List.mapM_append, here.read, there.read]
      rfl
    · obtain ⟨items, outline, shown⟩ := here.shown knows names
      obtain ⟨items', outline', shown'⟩ := there.shown knows names
      refine ⟨items ++ items', ?_, shown.append shown'⟩
      simp [Phrases.outline, outline, outline']

end

/-! ## The older dialect -/

theorem splitAt?_of_not_mem {c : Char} (pattern : List Char) : ∀ {cs : List Char}, c ∉ cs →
    splitAt? (c :: pattern) cs = none
  | [], _ => rfl
  | d :: cs, h => by
    have other : c ≠ d := fun hd => h (by simp [hd])
    rw [splitAt?, splitAt?_of_not_mem pattern fun hm => h (by simp [hm]), if_neg]
    · rfl
    · simp [List.isPrefixOf, other]

theorem detect_of_not_mem {source : List Char} (h : '{' ∉ source) :
    DoubleBrace.detect source = false := by
  have first (c : Char) : DoubleBrace.fromFirst? (String.ofList ['{', c]) source = none := by
    rw [DoubleBrace.fromFirst?, String.toList_ofList, splitAt?_of_not_mem _ h]
    rfl
  rw [DoubleBrace.detect, show ("\x7b\x7b" : String) = String.ofList ['{', '{'] from rfl,
    show ("\x7b%" : String) = String.ofList ['{', '%'] from rfl, first, first]
  rfl

/-- A source with an outline compiles to a template that renders as the outline. -/
theorem Engine.compileSource_of_outline {source : String} {items : List Item} (engine : Engine)
    (name : Option String) (outline : outline? engine.functions.contains source = some items) :
    ∃ t, (engine.compileSource name source).2 = .ok t ∧
      ∀ c : Context, t.render c = Items.render t .start [] items (t.prepare c) := by
  obtain ⟨program, compiled, laid⟩ := (compile_refines _ _).some outline
  unfold compileSource
  simp only [compiled]
  refine ⟨_, rfl, ?_⟩
  generalize ht : Template.mk _ _ _ program _ _ _ = t
  have laid : t.program.LaidOut items := by
    rw [← ht]
    exact laid
  exact t.render_eq laid

/-- A source without expressions compiles, and rendering it with any context gives the source with
escaped values and nothing to report. -/
theorem Engine.render_build_writable {literals : List Literal} (h : Literals.Writable literals)
    (engine : Engine) (name : Option String) :
    ∃ t, (engine.build name (String.ofList (Literals.source literals))).2 = .ok t ∧ ∀ c : Context,
      toHtmlAll (t.render c).1 =
        String.ofList (Literals.source (Literals.mapValues escapeText literals)) ∧
      (t.render c).2.diagnostics = [] := by
  obtain ⟨tokens, forest, understood⟩ := Literals.understood literals 0 h.made
  have cut : Markup.tokens (String.ofList (Literals.source literals)).toList = (tokens, none) := by
    have whole := understood.cut (fun _ => .inl rfl) (cutInto_nil _)
    rw [List.append_nil, List.append_nil] at whole
    rw [String.toList_ofList]
    exact whole _ (Nat.le_refl _)
  obtain ⟨items, outline, shown⟩ := understood.shown engine.functions.contains []
  obtain ⟨t, compiled, run⟩ :=
    engine.compileSource_of_outline name (outline?_forest cut (understood.read _) outline)
  have modern : ¬ (engine.legacy = .detect ∧
      DoubleBrace.detect (String.ofList (Literals.source literals)).toList = true) := by
    rw [String.toList_ofList, detect_of_not_mem (Literals.no_brace h)]
    simp
  unfold build
  rw [if_neg modern]
  refine ⟨t, compiled, fun c => ?_⟩
  obtain ⟨nodes, rendered, html⟩ := shown t .start [] (t.prepare c)
  rw [run, rendered]
  exact ⟨by rw [← html, String.ofList_toList], rfl⟩

/-- A source without expressions compiles, and rendering it with any context gives the source back and
nothing to report. -/
theorem Engine.render_build_literal {literals : List Literal} (h : Literals.WellFormed literals)
    (engine : Engine) (name : Option String) :
    ∃ t, (engine.build name (String.ofList (Literals.source literals))).2 = .ok t ∧ ∀ c : Context,
      toHtmlAll (t.render c).1 = String.ofList (Literals.source literals) ∧
        (t.render c).2.diagnostics = [] := by
  have rendered := render_build_writable h.writable engine name
  rwa [h.mapValues_escapeText] at rendered

/-- A declaration, a void element in another one, flags and handlers that are plain text, and a text
that ends in a bracket. -/
theorem Engine.render_build_literal_page :
    let literals : List Literal :=
      [.declaration "doctype html".toList,
        .element "p" [("class", some "a b"), ("hidden", none), ("onclick", some "go(1)")]
          [.text "1 < 2 ".toList, .element "br" [] [], .text "<".toList], .text [' ']]
    let source := "<!doctype html><p class=\"a b\" hidden onclick=\"go(1)\">1 < 2 <br><</p> "
    Literals.WellFormed literals ∧ String.ofList (Literals.source literals) = source ∧
      ∃ t, (Engine.new.build none source).2 = .ok t ∧ ∀ c : Context,
        toHtmlAll (t.render c).1 = source ∧ (t.render c).2.diagnostics = [] := by
  intro literals source
  have names : Page.isTagName "p" = true ∧ Page.isTagName "br" = true ∧
      Page.isAttributeName "class" = true ∧ Page.isAttributeName "hidden" = true ∧
      Page.isAttributeName "onclick" = true ∧ isVoid "p" = false := by
    decide +kernel
  have wellFormed : Literals.WellFormed literals := by
    simp [literals, Literals.WellFormed, Literals.Made, Literal.Made, PlainAttribute, Literal.isText,
      names, isPlainText, startsTag, isAsciiLetter]
  have written : String.ofList (Literals.source literals) = source := by decide +kernel
  exact ⟨wellFormed, written, written ▸ Engine.render_build_literal wellFormed .new none⟩

/-- The values of attributes are kept as they are written, and escaped in the page. A reader that undoes
the escapes finds the written text itself in the page. It finds what this text means in the source only
if the text means itself there, which is so if it has no entities. -/
theorem Engine.render_build_values {literals : List Literal} (h : Literals.Writable literals)
    {decode : String → String} (hd : ∀ s, decode (escapeText s) = s) (engine : Engine)
    (name : Option String) :
    let page := Literals.mapValues escapeText literals
    (∃ t, (engine.build name (String.ofList (Literals.source literals))).2 = .ok t ∧ ∀ c : Context,
      toHtmlAll (t.render c).1 = String.ofList (Literals.source page)) ∧
    Literals.Writable page ∧
    (Literals.values page).map decode = Literals.values literals ∧
    ((Literals.values page).map decode = (Literals.values literals).map decode ↔
      ∀ value ∈ Literals.values literals, decode value = value) := by
  intro page
  obtain ⟨t, built, rendered⟩ := render_build_writable h engine name
  have read : (Literals.values page).map decode = Literals.values literals := by
    rw [Literals.values_mapValues, List.map_map]
    exact (List.map_congr_left fun s _ => hd s).trans (List.map_id _)
  refine ⟨⟨t, built, fun c => (rendered c).1⟩, h.mapValues_escapeText, read, ?_⟩
  rw [read]
  -- what is read is the list of the written values, so decoding must leave each of them alone
  constructor
  · intro same value mem
    have kept : (Literals.values literals).map decode = (Literals.values literals).map id := by
      rw [List.map_id, ← same]
    exact List.map_inj_left.1 kept value mem
  · intro same
    exact ((List.map_congr_left same).trans (List.map_id _)).symm

/-- Values with quotes, brackets and an ampersand that begins no entity. -/
theorem Engine.render_build_values_plain :
    let literals : List Literal :=
      [.element "a" [("href", some "?a=1&b=2"), ("hidden", none)]
        [.element "br" [("title", some "'<br>'")] []]]
    let decode (s : String) : String := Page.decodeText s.toList
    let page := Literals.mapValues escapeText literals
    Literals.Writable literals ∧ (∀ s, decode (escapeText s) = s) ∧
      String.ofList (Literals.source literals) = "<a href=\"?a=1&b=2\" hidden><br title=\"'<br>'\"></a>" ∧
      (∃ t, (Engine.new.build none (String.ofList (Literals.source literals))).2 = .ok t ∧
        ∀ c : Context, toHtmlAll (t.render c).1 = String.ofList (Literals.source page)) ∧
      (Literals.values page).map decode = (Literals.values literals).map decode := by
  intro literals decode page
  have names : Page.isTagName "a" = true ∧ Page.isTagName "br" = true ∧
      Page.isAttributeName "href" = true ∧ Page.isAttributeName "hidden" = true ∧
      Page.isAttributeName "title" = true ∧ isVoid "a" = false := by
    decide +kernel
  have writable : Literals.Writable literals := by
    simp [literals, Literals.Writable, Literals.Made, Literal.Made, QuotedAttribute, Literal.isText, names]
  have undone : ∀ s, decode (escapeText s) = s := Page.decodeText_escapeText
  obtain ⟨built, -, -, same⟩ := Engine.render_build_values writable undone .new none
  refine ⟨writable, undone, by decide +kernel, built, same.2 ?_⟩
  decide +kernel

/-- An entity in a value is escaped once more, so that the page no longer shows what the source means. -/
theorem Engine.render_build_entity :
    let literals : List Literal := [.element "p" [("title", some "a &amp; b")] []]
    Literals.Writable literals ∧
      String.ofList (Literals.source literals) = "<p title=\"a &amp; b\"></p>" ∧
      (∃ t, (Engine.new.build none "<p title=\"a &amp; b\"></p>").2 = .ok t ∧ ∀ c : Context,
        toHtmlAll (t.render c).1 = "<p title=\"a &amp;amp; b\"></p>") ∧
      Page.decodeText "a &amp;amp; b".toList = "a &amp; b" ∧
      Page.decodeText "a &amp; b".toList = "a & b" := by
  intro literals
  have names : Page.isTagName "p" = true ∧ Page.isAttributeName "title" = true ∧
      isVoid "p" = false := by
    decide +kernel
  have writable : Literals.Writable literals := by
    simp [literals, Literals.Writable, Literals.Made, Literal.Made, QuotedAttribute, Literal.isText, names]
  have written : String.ofList (Literals.source literals) = "<p title=\"a &amp; b\"></p>" := by
    decide +kernel
  have page : String.ofList (Literals.source (Literals.mapValues escapeText literals)) =
      "<p title=\"a &amp;amp; b\"></p>" := by
    decide +kernel
  obtain ⟨t, built, rendered⟩ := Engine.render_build_writable writable .new none
  rw [written] at built
  refine ⟨writable, written, ⟨t, built, fun c => ?_⟩, by decide +kernel, by decide +kernel⟩
  rw [(rendered c).1, page]

end LiveTemplate
