/-
Where the parts of a template stand. The regions of directives and attributes lie in the source, so
compiling gives programs whose expressions lie in it and reports its faults there; the passes over
the older dialect report theirs in the text that each of them reads.
-/
import LiveTemplate.Proofs.DoubleBrace.Passes
import LiveTemplate.Proofs.Location.Expressions
import LiveTemplate.Proofs.Markup.Division
import LiveTemplate.Proofs.Markup.Tag
import LiveTemplate.Proofs.Program.Soundness

namespace LiveTemplate

open Text Markup

variable {text tail : List Char}

namespace Markup

/-! ## Directives -/

/-- The regions of a directive lie in a text. -/
def Directive.Fits (text : List Char) : Directive → Prop
  | ifOpen r | unlessOpen r | elseIf r | eachOpen r _ | forOpen _ r | html r | json r
  | expression r => r.Within text
  | elseOnly | ifClose | unlessClose | eachClose | forClose => True

theorem loopParams_located : ∀ {ts : List Grammar.Lexeme}, Grammar.Fit text ts →
    Locates text (fun _ => True) (loopParams ts) := by
  intro ts h
  fun_induction loopParams ts with
  | case1 => trivial
  | case2 => trivial
  | case3 name _ _ rest ih => exact (ih h.tail.tail).map fun _ _ => trivial
  | case4 => exact h.tail.head.span
  | case5 => exact h.head.span

theorem unbracket_fit {ts inner : List Grammar.Lexeme} (hts : Grammar.Fit text ts)
    (h : unbracket ts = some inner) : Grammar.Fit text inner := by
  have bracketed : Grammar.Fit text (ts.drop 1).dropLast := fun t ht =>
    hts t (List.mem_of_mem_drop (List.mem_of_mem_dropLast ht))
  unfold unbracket at h
  split at h <;> cases h <;> exact bracketed

theorem parseBinding_located {region : Region} (h : region.Within text) :
    Locates text (fun _ => True) (parseBinding region) := by
  unfold parseBinding
  refine (Grammar.tokens_located _ h).bind fun ts hts => ?_
  have inner : Grammar.Fit text ((unbracket ts).getD ts) := by
    cases hu : unbracket ts with
    | none => exact hts
    | some inner => exact unbracket_fit hts hu
  refine (loopParams_located inner).bind fun params _ => ?_
  exact Locates.ite (fun _ => h.span) fun _ => trivial

theorem splitAtKeyword_within {keyword : String} {last : Bool} {region before after : Region}
    (h : region.Within text) (hs : splitAtKeyword keyword last region = some (before, after)) :
    before.Within text ∧ after.Within text := by
  obtain ⟨i, -, eq⟩ := Option.map_eq_some_iff.1 hs
  cases eq
  exact ⟨h.take i, h.drop _⟩

theorem Directive.parse_located {braced : Region} (h : braced.Within text) :
    Locates text (Directive.Fits text) (Directive.parse braced) := by
  have trimmed := h.trim
  unfold Directive.parse
  refine .ite (fun _ => trimmed) fun _ => ?_
  generalize braced.trim = here at trimmed ⊢
  extract_lets length head rest needed alone
  have hrest : rest.Within text := (trimmed.drop length).trim
  have hneeded (r : Region) (hr : r.Within text) : Locates text (Region.Within text) (needed r) := by
    unfold needed
    split
    · exact trimmed.span
    · exact hr
  have halone (d : Directive) (hd : d.Fits text) : Locates text (Directive.Fits text) (alone d) := by
    unfold alone
    split
    · exact hd
    · exact hrest.span
  have hhead : head.Within text := trimmed.take length
  clear_value alone needed rest head
  split
  · exact (hneeded rest hrest).map fun _ hr => hr
  · exact (hneeded rest hrest).map fun _ hr => hr
  · refine (hneeded rest hrest).bind fun rest hr => ?_
    split
    · exact hr.span
    · rename_i hs
      obtain ⟨hc, hb⟩ := splitAtKeyword_within hr hs
      exact (parseBinding_located hb.trim).bind fun _ _ => hc.trim
  · refine (hneeded rest hrest).bind fun rest hr => ?_
    split
    · exact hr.span
    · rename_i hs
      obtain ⟨hb, hc⟩ := splitAtKeyword_within hr hs
      exact (parseBinding_located hb.trim).bind fun _ _ => (hneeded _ hc.trim).bind fun _ hr => hr
  · split
    · trivial
    · exact (hneeded _ (hrest.drop 2).trim).map fun _ hr => hr
    · exact (hneeded _ (hrest.drop 2).trim).map fun _ hr => hr
    · exact (hneeded _ (hrest.drop 2).trim).map fun _ hr => hr
    · exact hrest.span
  · exact halone _ trivial
  · exact halone _ trivial
  · exact halone _ trivial
  · exact halone _ trivial
  · exact (hneeded rest hrest).map fun _ hr => hr
  · exact (hneeded rest hrest).map fun _ hr => hr
  · exact hhead.span

/-! ## Attributes -/

/-- The expression of an attribute lies in a text. -/
def AttributeValue.Fits (text : List Char) : AttributeValue → Prop
  | dynamic r => r.Within text
  | plain _ | flag => True

theorem quotedValue_located {mark : Char} (one : mark.utf8Size = 1) {start : Nat} {cs : List Char}
    (h : Region.Before text tail ⟨start, mark :: cs⟩) :
    Locates text (fun found => found.1.Fits text ∧ found.2.Before text tail)
      (quotedValue mark ⟨start, mark :: cs⟩ tail) := by
  refine .ite (fun _ => ⟨trivial, h.drop _⟩) fun _ => .ite (fun _ => ⟨trivial, h.drop _⟩) fun _ => ?_
  have front := h.within.front (a := [mark])
  rwa [byteLength, byteLength, one] at front

theorem tagFault_span (unclosed : Delimiter.Unclosed) :
    (tagFault unclosed).span = ⟨unclosed.offset, unclosed.offset + 1⟩ := by
  cases unclosed <;> rfl

theorem fault_span (unclosed : Delimiter.Unclosed) :
    unclosed.fault.span = ⟨unclosed.offset, unclosed.offset + 1⟩ := by
  cases unclosed <;> rfl

theorem bracedValue_located {start : Nat} {cs : List Char}
    (h : Region.Before text tail ⟨start, '{' :: cs⟩) :
    Locates text (fun found => found.1.Fits text ∧ found.2.Before text tail)
      (bracedValue ⟨start, '{' :: cs⟩ tail) := by
  -- the braces may be closed behind the tag only
  have beyond : Region.Within text ⟨start, '{' :: (cs ++ tail)⟩ := by
    obtain ⟨before, eq, hs⟩ := h
    exact ⟨[], before, by simpa using eq, hs⟩
  have split := Delimiter.closeBrace_splits beyond
  have ahead : ((Region.drop 1 ⟨start, '{' :: cs⟩).text.append tail) = cs ++ tail := rfl
  unfold bracedValue
  rw [ahead]
  cases hc : Delimiter.closeBrace start (cs ++ tail) with
  | error unclosed =>
    rw [hc] at split
    show (tagFault unclosed).span.Fits text
    rw [tagFault_span]
    exact split
  | ok found =>
    obtain ⟨inside, after⟩ := found
    rw [hc] at split
    refine .ite (fun _ => ⟨?_, h.drop _⟩) fun _ => h.within.front (a := ['{'])
    have behind : Region.Within text ⟨start + 1, cs ++ tail⟩ := beyond.rest
    rw [show cs ++ tail = inside ++ after from split] at behind
    exact behind.left.dropLast

theorem eq_nil_of_byteLength {cs : List Char} (h : byteLength cs = 0) : cs = [] := by
  cases cs with
  | nil => rfl
  | cons c cs =>
    have := c.utf8Size_pos
    rw [byteLength] at h
    omega

/-- The span from the start of a region to the start of what is left of it. -/
theorem Before.upTo {here rest : Region} (h : here.Within text) (hr : rest.Within text)
    (le : here.start ≤ rest.start) : Span.Fits text ⟨here.start, rest.start⟩ :=
  ⟨h.start, hr.start, le⟩

/-- What begins with neither a blank nor a character of a name is taken for a malformed name. -/
theorem badName_fits {start : Nat} {c : Char} {cs : List Char}
    (h : Region.Within text ⟨start, c :: cs⟩) (hc : isBlank c = false) :
    let here : Region := ⟨start, c :: cs⟩
    let junk := here.dropWhile isNameJunk
    Span.Fits text ⟨start, if junk.start = start then min (start + 1) here.stop else junk.start⟩ := by
  intro here junk
  split
  · rename_i same
    -- no character was taken, so the first one is the sign before a value
    have none : here.text.takeWhile isNameJunk = [] := by
      refine eq_nil_of_byteLength ?_
      have start : start + byteLength (here.text.take (here.text.takeWhile isNameJunk).length) =
        start := same
      rw [← List.prefix_iff_eq_take.1 (List.takeWhile_prefix _)] at start
      omega
    obtain rfl : c = '=' := by
      simpa [here, List.takeWhile_cons, isNameJunk, hc] using none
    have stop : start + 1 ≤ here.stop := by
      show start + 1 ≤ start + (1 + byteLength cs)
      omega
    rw [Nat.min_eq_left stop]
    exact h.front (a := ['='])
  · exact Before.upTo h (h.drop _) (here.start_le_dropWhile _)

theorem readAttribute_located {start : Nat} {c : Char} {cs : List Char}
    (h : Region.Before text tail ⟨start, c :: cs⟩) (hc : isBlank c = false) :
    Locates text (fun found => found.1.value.Fits text ∧ found.2.Before text tail)
      (readAttribute ⟨start, c :: cs⟩ tail) := by
  unfold readAttribute
  extract_lets name after junk stop name' sign value finish
  have hafter : after.Before text tail := h.drop name.length
  have hvalue : value.Before text tail := ((hafter.drop _).drop 1).drop _
  have hfinish {x : Except Fault (AttributeValue × Region)}
      (hx : Locates text (fun found => found.1.Fits text ∧ found.2.Before text tail) x) :
      Locates text (fun found => found.1.value.Fits text ∧ found.2.Before text tail)
        (x.map finish) :=
    hx.map fun _ hf => hf
  have from_start : start ≤ after.start := Region.start_le_drop ⟨start, c :: cs⟩ name.length
  have past_sign : after.start ≤ value.start :=
    ((after.start_le_dropWhile _).trans (sign.start_le_drop 1)).trans (Region.start_le_dropWhile _ _)
  refine .ite (fun unnamed => ?_) fun _ => .ite (fun _ => ?_) fun _ => .ite (fun _ => ?_) fun _ => ?_
  · have same : after = ⟨start, c :: cs⟩ := by
      unfold after
      rw [List.isEmpty_iff.1 unnamed]
      rfl
    unfold stop junk
    rw [same]
    exact badName_fits h.within hc
  · exact Before.upTo h.within (hafter.drop _).within (from_start.trans (after.start_le_dropWhile _))
  · exact ⟨trivial, hafter⟩
  · clear_value value
    obtain ⟨pos, vs⟩ := value
    cases vs with
    | nil => exact Before.upTo h.within hvalue.within (from_start.trans past_sign)
    | cons d ds =>
      refine .ite (fun quote => ?_) fun _ => .ite (fun brace => ?_) fun _ => ?_
      · refine hfinish (quotedValue_located (Delimiter.utf8Size_of_isQuote ?_) hvalue)
        rw [Delimiter.isQuote, quote, Bool.true_or]
      · obtain rfl : d = '{' := beq_iff_eq.1 brace
        exact hfinish (bracedValue_located hvalue)
      · exact ⟨trivial, hvalue.drop _⟩

/-- The expressions of a tag lie in a text, and so does the tag. -/
structure Tag.Fits (text : List Char) (t : Tag) : Prop where
  span : t.span.Fits text
  attributes : ∀ a ∈ t.attributes, a.value.Fits text

theorem readAttributes_located : ∀ (fuel : Nat) {here : Region}, here.Before text tail →
    Locates text (fun found => ∀ a ∈ found.1, a.value.Fits text) (readAttributes fuel here tail)
  | 0, _, _ => by simp [readAttributes, Locates]
  | fuel + 1, here, h => by
    have skipped : (here.dropWhile isBlank).Before text tail := h.drop _
    have solid : ∀ c ∈ (here.dropWhile isBlank).text.head?, isBlank c = false := by
      rw [Region.dropWhile_text]
      exact head?_trimStart here.text
    rw [readAttributes]
    dsimp only
    generalize here.dropWhile isBlank = here at skipped solid ⊢
    obtain ⟨start, cs⟩ := here
    cases cs with
    | nil => simp [Locates]
    | cons c cs =>
      split
      · simp [Locates]
      · simp [Locates]
      · refine (readAttribute_located skipped (solid c rfl)).bind fun found hf => ?_
        refine (readAttributes_located fuel hf.2).bind fun others ho => ?_
        exact List.forall_mem_cons.2 ⟨hf.1, ho⟩

theorem elementName_located {region : Region} (h : region.Within text) :
    Locates text (fun _ => True) (elementName region) :=
  .ite (fun _ => trivial) fun _ => .ite (fun _ => trivial) fun _ => h.span

/-- A tag is read from its `<` to before its `>`, with which the rest of the source begins. -/
theorem Tag.parse_located {start : Nat} {inner after : List Char}
    (h : Region.Before text after ⟨start, '<' :: (inner ++ ['>'])⟩) :
    Locates text (Tag.Fits text) (Tag.parse ⟨start, '<' :: (inner ++ ['>'])⟩ ('>' :: after)) := by
  have inside : Region.Before text ('>' :: after) ⟨start + 1, inner⟩ := by
    have behind : Region.Before text after ⟨start + 1, inner ++ ['>']⟩ := h.right (a := ['<'])
    exact behind.left
  unfold Tag.parse
  rw [List.drop_succ_cons, List.drop_zero, List.dropLast_concat]
  extract_lets region isClosing here rest
  have hhere : here.Before text ('>' :: after) := by
    unfold here
    split
    · exact inside.drop 1
    · exact inside
  refine .ite (fun _ => h.within.span) fun _ => ?_
  refine (elementName_located (hhere.within.take _)).bind fun name _ => ?_
  refine (readAttributes_located _ (hhere.drop _)).bind fun found ha => ?_
  exact ⟨h.within.span, ha⟩

/-- The source from the `>` of a tag on. -/
theorem Tag.dropBytes_tail {start : Nat} {inner after : List Char}
    (h : Region.Before text after ⟨start, '<' :: (inner ++ ['>'])⟩) :
    dropBytes (Region.stop ⟨start, '<' :: (inner ++ ['>'])⟩ - 1) text = '>' :: after := by
  obtain ⟨before, rfl, rfl⟩ := h
  have stop : Region.stop ⟨byteLength before, '<' :: (inner ++ ['>'])⟩ - 1 =
      byteLength (before ++ '<' :: inner) := by
    rw [Region.stop, ← List.cons_append, Delimiter.byteLength_append, Delimiter.byteLength_append]
    rfl
  have whole : before ++ ('<' :: (inner ++ ['>']) ++ after) =
      (before ++ '<' :: inner) ++ '>' :: after := by simp
  rw [stop, whole, dropBytes_append]

/-! ## Tokens -/

/-- A token lies in a text, and a tag stands between its angle brackets. -/
def Token.Fits (text : List Char) : Token → Prop
  | .tag region => region.Within text ∧ ∃ inner, region.text = '<' :: (inner ++ ['>'])
  | .text region | .braced region | .unterminated region => region.Within text

theorem Stretch.fits {pos : Nat} {cs rest : List Char} {here : List Token}
    (h : Stretch pos cs rest here) (hs : Region.Within text ⟨pos, cs⟩) : ∀ t ∈ here, t.Fits text := by
  intro t ht
  have within := h.within hs t ht
  cases h with
  | tag inside =>
    obtain rfl := List.mem_singleton.1 ht
    exact ⟨within, inside, rfl⟩
  | comment => cases ht
  | _ =>
    obtain rfl := List.mem_singleton.1 ht
    exact within

/-- The tokens of a text lie in it, and so does the fault that ends them. -/
structure TokensFit (text : List Char) (found : List Token × Option Fault) : Prop where
  tokens : ∀ t ∈ found.1, t.Fits text
  fault : ∀ fault ∈ found.2, fault.span.Fits text

theorem tokensFrom_fit : ∀ (fuel : Nat) {pos : Nat} {cs : List Char},
    Region.Within text ⟨pos, cs⟩ → TokensFit text (tokensFrom fuel pos cs)
  | 0, _, _, _ => ⟨by simp [tokensFrom], by simp [tokensFrom]⟩
  | _ + 1, _, [], _ => ⟨by simp [tokensFrom], by simp [tokensFrom]⟩
  | fuel + 1, pos, c :: rest, h => by
    rcases tokensFrom_step pos c rest with
      ⟨unclosed, rfl, hc, step⟩ | ⟨read, more, here, whole, stretch, step⟩
    · have split := Delimiter.closeBrace_splits h
      rw [hc] at split
      rw [step]
      refine ⟨by simp, fun fault hf => ?_⟩
      cases hf
      rw [fault_span]
      exact split
    · rw [whole] at h
      obtain ⟨others, fault⟩ := tokensFrom_fit fuel h.right
      rw [step]
      exact ⟨List.forall_mem_append.2 ⟨stretch.fits h.left, others⟩, fault⟩

end Markup

/-! ## Programs -/

/-- The expressions of an instruction lie in a text. -/
def Instr.Fits (text : List Char) : Instr → Prop
  | setAttributeExpr _ e _ | emit e _ _ | branch e _ _ | openLoop _ _ e _ => e.Fits text
  | addListener _ handler => handler.expr.Fits text
  | _ => True

namespace Builder

variable {knows : String → Bool} {b : Builder}

/-- All that a builder keeps lies in a text. -/
structure Fits (text : List Char) (b : Builder) : Prop where
  instrs : ∀ instr ∈ b.instrs.toList, instr.Fits text
  elements : ∀ e ∈ b.elements, e.span.Fits text
  blocks : ∀ block ∈ b.blocks, block.span.Fits text

theorem fits_empty : empty.Fits text :=
  ⟨by simp [empty], by simp [empty], by simp [empty]⟩

theorem Fits.push (h : b.Fits text) (instr : Instr) (hi : instr.Fits text) :
    (b.push instr).Fits text := by
  refine ⟨fun x hx => ?_, h.elements, h.blocks⟩
  rw [Builder.push, Array.toList_push, List.mem_append, List.mem_singleton] at hx
  rcases hx with hx | rfl
  · exact h.instrs x hx
  · exact hi

theorem Fits.patch (h : b.Fits text) (pc : Nat) : (b.patch pc).Fits text := by
  refine ⟨fun x hx => ?_, h.elements, h.blocks⟩
  rw [Builder.patch, Array.toList_modify] at hx
  obtain ⟨y, hy, rfl | rfl⟩ := mem_modify hx
  · exact h.instrs x hy
  · have hy := h.instrs y hy
    cases y <;> exact hy

theorem Fits.foldl_patch : ∀ (pcs : List Nat) {b : Builder}, b.Fits text →
    (pcs.foldl Builder.patch b).Fits text
  | [], _, h => h
  | pc :: rest, _, h => foldl_patch rest (h.patch pc)

theorem Fits.closeWith (h : b.Fits text) (opened : Nat) (instr : Instr)
    (hi : instr.Fits text) : (b.closeWith opened instr).Fits text := by
  refine ⟨fun x hx => ?_, h.elements, h.blocks⟩
  rw [Builder.closeWith, Array.toList_modify] at hx
  obtain ⟨y, hy, rfl | rfl⟩ := mem_modify hx
  · exact (h.push _ hi).instrs x hy
  · have hy := (h.push _ hi).instrs y hy
    cases y <;> exact hy

theorem expr_located {region : Region} (h : region.Within text) :
    Locates text (Expr.Fits text) (b.expr knows region) :=
  (Expr.parse_located h).bind fun e he => e.resolve_located _ he

theorem handler_located {region : Region} (h : region.Within text) :
    Locates text (fun handler => handler.expr.Fits text) (b.handler knows region) :=
  (Expr.parse_located h).bind fun _ he => Expr.resolveHandler_located _ he

theorem addAttribute_located (h : b.Fits text) {a : Attribute} (ha : a.value.Fits text) :
    Locates text (Builder.Fits text) (addAttribute knows b a) := by
  unfold addAttribute
  split
  · exact h.push _ trivial
  · exact h.push _ trivial
  · rename_i region hv
    rw [hv] at ha
    split
    · exact (handler_located ha).bind fun handler hh => h.push _ hh
    · refine (expr_located ha).bind fun e he => ?_
      have acted : (b.addAction .property region.span e).2.Fits text := ⟨h.instrs, h.elements, h.blocks⟩
      exact acted.push _ he

theorem openTag_located (h : b.Fits text) {tag : Tag} (ht : tag.Fits text) :
    Locates text (Builder.Fits text) (b.openTag knows tag) := by
  unfold openTag
  refine Locates.bind (Locates.foldlM (h.push _ trivial) fun b a ha hb =>
    addAttribute_located hb (ht.attributes a ha)) fun b hb => ?_
  refine .ite (fun _ => hb.push _ trivial) fun _ => ?_
  exact ⟨hb.instrs, List.forall_mem_cons.2 ⟨ht.span, hb.elements⟩, hb.blocks⟩

theorem closeTag_located (h : b.Fits text) {tag : Tag} (ht : tag.Fits text) :
    Locates text (Builder.Fits text) (b.closeTag tag) := by
  unfold closeTag
  dsimp only
  split
  · rename_i element rest he
    have outer : Builder.Fits text { b with elements := rest } :=
      ⟨h.instrs, fun e hm => h.elements e (by rw [he]; exact List.mem_cons_of_mem _ hm), h.blocks⟩
    exact .ite (fun _ => ht.span) fun _ => .ite (fun _ => outer.push _ trivial) fun _ => ht.span
  · exact ht.span

theorem checkElements_located (h : b.Fits text) (block : OpenBlock) :
    Locates text (fun _ => True) (b.checkElements block) := by
  unfold checkElements
  split
  · rename_i element he
    exact h.elements element (List.mem_reverse.1 (List.mem_of_getElem? he))
  · trivial

theorem elseBlock_located (h : b.Fits text) {directive : Directive} {span : Span}
    (hs : span.Fits text) :
    Locates text (fun block => block.span.Fits text) (b.elseBlock directive span) := by
  unfold elseBlock
  split
  · rename_i block rest hb
    refine .ite (fun _ => ?_) fun _ => hs
    exact (checkElements_located h block).map fun _ _ => h.blocks block (by rw [hb]; simp)
  · exact hs

theorem popBlock_located (h : b.Fits text) {kind : BlockKind} {directive : Directive} {span : Span}
    (hs : span.Fits text) :
    Locates text (fun popped => popped.2.Fits text) (b.popBlock kind directive span) := by
  unfold popBlock
  split
  · exact hs
  · rename_i block rest hb
    refine .ite (fun _ => ?_) fun _ => hs
    refine (checkElements_located h block).map fun _ _ => ⟨h.instrs, h.elements, fun x hx => ?_⟩
    exact h.blocks x (by rw [hb]; exact List.mem_cons_of_mem _ hx)

theorem endClause_fits (h : b.Fits text) (block : OpenBlock) :
    (b.endClause block).1.Fits text ∧ (b.endClause block).2.span = block.span := by
  refine ⟨?_, rfl⟩
  unfold endClause
  cases block.pending with
  | none => exact h.push _ trivial
  | some pc => exact (h.push (.jump pendingTarget) trivial).patch pc

theorem setBlock_fits (h : b.Fits text) {block : OpenBlock} (hb : block.span.Fits text) :
    (b.setBlock block).Fits text :=
  ⟨h.instrs, h.elements,
    List.forall_mem_cons.2 ⟨hb, fun x hx => h.blocks x (List.mem_of_mem_drop hx)⟩⟩

theorem addEmit_located (h : b.Fits text) {region : Region} (hr : region.Within text)
    (mode : EmitMode) : Locates text (Builder.Fits text) (b.addEmit knows region mode) := by
  refine (expr_located hr).bind fun e he => ?_
  have acted : (b.addAction .text region.span e).2.Fits text := ⟨h.instrs, h.elements, h.blocks⟩
  exact acted.push _ he

theorem openConditional_located (h : b.Fits text) (kind : BlockKind) {test : Region} {span : Span}
    (ht : test.Within text) (hs : span.Fits text) :
    Locates text (Builder.Fits text) (b.openConditional knows kind test span) := by
  refine (expr_located ht).bind fun e he => ?_
  have acted : (b.addAction .conditional test.span e).2.Fits text := ⟨h.instrs, h.elements, h.blocks⟩
  have opened := (acted.push (.openConditional b.actions.size pendingTarget) trivial).push
    (.branch e (kind == .unlessBlock) pendingTarget) he
  exact ⟨opened.instrs, opened.elements, List.forall_mem_cons.2 ⟨hs, opened.blocks⟩⟩

theorem openLoop_located (h : b.Fits text) (kind : BlockKind) {collection : Region}
    (binding : LoopBinding) {span : Span} (hc : collection.Within text) (hs : span.Fits text) :
    Locates text (Builder.Fits text) (b.openLoop knows kind collection binding span) := by
  refine (expr_located hc).bind fun e he => ?_
  have acted : (b.addAction .loop collection.span e).2.Fits text := ⟨h.instrs, h.elements, h.blocks⟩
  have opened := (acted.push (.openLoop b.actions.size binding e pendingTarget) he).push
    (.iterate pendingTarget) trivial
  exact ⟨opened.instrs, opened.elements, List.forall_mem_cons.2 ⟨hs, opened.blocks⟩⟩

theorem addElseIf_located (h : b.Fits text) {directive : Directive} {test : Region} {span : Span}
    (ht : test.Within text) (hs : span.Fits text) :
    Locates text (Builder.Fits text) (b.addElseIf knows directive test span) := by
  refine (elseBlock_located h hs).bind fun block hb => (expr_located ht).bind fun e he => ?_
  have read : (b.addReads block.action e).Fits text := ⟨h.instrs, h.elements, h.blocks⟩
  obtain ⟨ended, same⟩ := endClause_fits read block
  exact setBlock_fits (ended.push (.branch e false pendingTarget) he) (same ▸ hb)

theorem addElse_located (h : b.Fits text) {directive : Directive} {span : Span}
    (hs : span.Fits text) : Locates text (Builder.Fits text) (b.addElse directive span) := by
  refine (elseBlock_located h hs).bind fun block hb => ?_
  obtain ⟨ended, same⟩ := endClause_fits h block
  exact setBlock_fits ended (same ▸ hb)

theorem closeConditional_located (h : b.Fits text) (kind : BlockKind) {directive : Directive}
    {span : Span} (hs : span.Fits text) :
    Locates text (Builder.Fits text) (b.closeConditional kind directive span) :=
  (popBlock_located h hs).bind fun _ hp => (Fits.foldl_patch _ hp).closeWith _ _ trivial

theorem closeLoop_located (h : b.Fits text) (kind : BlockKind) {directive : Directive}
    {span : Span} (hs : span.Fits text) :
    Locates text (Builder.Fits text) (b.closeLoop kind directive span) := by
  refine (popBlock_located h hs).bind fun popped hp => ?_
  have jumped := hp.push (.jump (popped.1.opened + 1)) trivial
  have closed := (jumped.patch (popped.1.opened + 1)).closeWith popped.1.opened
    .closeLoop trivial
  exact ⟨closed.instrs, closed.elements, closed.blocks⟩

theorem addDirective_located (h : b.Fits text) {directive : Directive} {span : Span}
    (hd : directive.Fits text) (hs : span.Fits text) :
    Locates text (Builder.Fits text) (b.addDirective knows directive span) := by
  cases directive with
  | ifOpen test | unlessOpen test => exact openConditional_located h _ hd hs
  | elseIf test => exact addElseIf_located h hd hs
  | elseOnly => exact addElse_located h hs
  | eachOpen collection binding | forOpen binding collection =>
    exact openLoop_located h _ binding hd hs
  | ifClose | unlessClose => exact closeConditional_located h _ hs
  | eachClose | forClose => exact closeLoop_located h _ hs
  | html e | json e | expression e => exact addEmit_located h hd _

theorem addText_fits (h : b.Fits text) (cs : List Char) : (b.addText cs).Fits text := by
  unfold addText
  split
  · exact h
  · exact h.push _ trivial

theorem addToken_located (h : b.Fits text) {token : Markup.Token} (ht : token.Fits text) :
    Locates text (Builder.Fits text) (addToken knows text b token) := by
  cases token with
  | text region | unterminated region => exact addText_fits h _
  | tag region =>
    refine .ite (fun _ => h.push _ trivial) fun _ => ?_
    obtain ⟨start, cs⟩ := region
    obtain ⟨⟨after, hw⟩, inner, rfl⟩ := ht
    show Locates text _ (Tag.parse _ (dropBytes (Region.stop _ - 1) text) >>= _)
    rw [Tag.dropBytes_tail hw]
    refine (Tag.parse_located hw).bind fun tag htag => ?_
    exact .ite (fun _ => closeTag_located h htag) fun _ => openTag_located h htag
  | braced region =>
    exact (Directive.parse_located ht).bind fun d hd =>
      addDirective_located h hd (Region.Within.span ht)

theorem finish_located (h : b.Fits text) :
    Locates text (fun program => ∀ instr ∈ program.instrs.toList, instr.Fits text) b.finish := by
  unfold finish
  split
  · rename_i block rest hb
    exact h.blocks block (by rw [hb]; simp)
  · intro instr hi
    rw [Array.toList_append, List.mem_append] at hi
    rcases hi with hi | hi
    · exact h.instrs instr hi
    · rw [(List.mem_replicate.1 hi).2]
      trivial

end Builder

/-- Compiling gives a program whose expressions lie in the source, or a fault that does. -/
theorem compile_located (knows : String → Bool) (source : String) :
    Locates source.toList (fun program => ∀ instr ∈ program.instrs.toList, instr.Fits source.toList)
      (compile knows source).program := by
  have found : TokensFit source.toList (Markup.tokens source.toList) :=
    tokensFrom_fit _ (Region.within_whole source)
  rw [compile_program]
  refine (Locates.foldlM Builder.fits_empty fun b token ht hb =>
    Builder.addToken_located hb (found.tokens token ht)).bind fun b hb => ?_
  split
  · rename_i fault hf
    exact found.fault fault hf
  · exact Builder.finish_located hb

/-! ## The older dialect -/

namespace DoubleBrace

/-- Around an occurrence of a pattern stand two regions, and the pattern stands between them. -/
theorem splitRegion?_within {pattern : List Char} {r before after : Region} (h : r.Within text)
    (hs : splitRegion? pattern r = some (before, after)) :
    before.Within text ∧ after.Within text ∧ before.stop ≤ after.start ∧ r.start ≤ after.start := by
  obtain ⟨⟨cs, rest⟩, -, eq⟩ := Option.map_eq_some_iff.1 hs
  cases eq
  refine ⟨h.take _, h.drop _, ?_, r.start_le_drop _⟩
  show r.start + byteLength (r.text.take cs.length) ≤
    r.start + byteLength (r.text.take (cs.length + pattern.length))
  rw [List.take_add, Delimiter.byteLength_append]
  omega

/-- The pieces of a template around its fragments lie in a text, and so do the fragments. -/
structure Fragments.Fits (text : List Char) (f : Fragments) : Prop where
  main : ∀ r ∈ f.main, r.Within text
  declared : ∀ d ∈ f.declared, d.2.Within text

theorem collect_located : ∀ (fuel : Nat) {here : Region}, here.Within text →
    Locates text (Fragments.Fits text) (collect fuel here)
  | 0, _, h => ⟨List.forall_mem_singleton.2 h, by simp⟩
  | fuel + 1, here, h => by
    rw [collect]
    split
    · exact ⟨List.forall_mem_singleton.2 h, by simp⟩
    · rename_i before head hs
      obtain ⟨hb, hh, opening, -⟩ := splitRegion?_within h hs
      split
      · exact ⟨hb.stop, hh.start, opening⟩
      · rename_i name body hn
        obtain ⟨-, hbody, -, le⟩ := splitRegion?_within hh hn
        have declaration : Span.Fits text ⟨before.stop, body.start⟩ :=
          ⟨hb.stop, hbody.start, opening.trans le⟩
        refine .ite (fun _ => declaration) fun _ => ?_
        split
        · exact declaration
        · rename_i inner rest hc
          obtain ⟨hinner, hrest, -⟩ := splitRegion?_within hbody hc
          refine (collect_located fuel hrest).bind fun others ho => ?_
          exact ⟨List.forall_mem_cons.2 ⟨hb, ho.main⟩,
            List.forall_mem_append.2 ⟨ho.declared, List.forall_mem_singleton.2 hinner⟩⟩

theorem expandWith_located {resolve : String → Span → Except Fault (List Char)}
    (hr : ∀ name span, span.Fits text → Locates text (fun _ => True) (resolve name span)) :
    ∀ (fuel : Nat) {here : Region}, here.Within text →
      Locates text (fun _ => True) (expandWith resolve fuel here)
  | 0, _, _ => trivial
  | fuel + 1, here, h => by
    rw [expandWith]
    split
    · trivial
    · rename_i before head hs
      obtain ⟨hb, hh, opening, -⟩ := splitRegion?_within h hs
      split
      · exact ⟨hb.stop, hh.start, opening⟩
      · rename_i name rest hn
        obtain ⟨-, hrest, -, le⟩ := splitRegion?_within hh hn
        exact (hr _ _ ⟨hb.stop, hrest.start, opening.trans le⟩).bind fun _ _ =>
          (expandWith_located hr fuel hrest).bind fun _ _ => trivial

theorem expand_located {declared : List (String × Region)}
    (hd : ∀ d ∈ declared, d.2.Within text) : ∀ (depth : Nat) (stack : List String) {here : Region},
      here.Within text → Locates text (fun _ => True) (expand declared depth stack here)
  | 0, _, _, _ => trivial
  | depth + 1, stack, here, h => by
    refine expandWith_located (fun name span hs => ?_) _ h
    split
    · exact hs
    · rename_i body hl
      obtain ⟨before, after, rfl, -⟩ := List.lookup_eq_some_iff.1 hl
      exact .ite (fun _ => hs) fun _ => expand_located hd depth _ (hd (name, body) (by simp))

theorem expandAll_located {f : Fragments} (h : f.Fits text) :
    Locates text (fun _ => True) f.expandAll :=
  .foldlM trivial fun _ r hr _ => (expand_located h.declared _ [] (h.main r hr)).map fun _ _ => trivial

theorem convertTag_located (inside : List Char) {span : Span} (h : span.Fits text) :
    Locates text (fun _ => True) (convertTag inside span) := by
  have at_ := convertTag_at inside span span
  cases hc : convertTag inside span with
  | ok shown => trivial
  | error fault =>
    rw [hc] at at_
    rw [Except.error.inj at_]
    exact h

/-- What follows a tag between brackets. -/
theorem after_tag (opening : List Char) {pos : Nat} {closing inside after : List Char}
    (h : Region.Within text ⟨pos, opening ++ (inside ++ closing ++ after)⟩) :
    Region.Within text
      ⟨pos + (byteLength opening + byteLength closing) + byteLength inside, after⟩ := by
  have behind := h.right.right
  rw [Delimiter.byteLength_append] at behind
  convert behind using 2
  omega

theorem convert_located : ∀ (fuel : Nat) {pos : Nat} {cs : List Char}, Region.Within text ⟨pos, cs⟩ →
    Locates text (fun _ => True) (convert fuel pos cs) := by
  intro fuel pos cs h
  fun_induction convert fuel pos cs with
  | case1 => trivial
  | case2 => trivial
  | case3 fuel pos rest _ => exact h.front (a := ['{', '{', '{'])
  | case4 fuel pos rest inside after closed ih =>
    rw [closeTag?_eq closed] at h
    exact (ih (after_tag ['{', '{', '{'] h)).bind fun _ _ => trivial
  | case5 fuel pos rest _ _ => exact h.front (a := ['{', '{'])
  | case6 fuel pos rest _ inside after closed ih =>
    rw [closeTag?_eq closed, List.append_assoc] at h
    have behind : Region.Within text ⟨pos + 2, inside ++ (tagClose ++ after)⟩ :=
      h.right (a := ['{', '{'])
    rw [← List.append_assoc] at h
    refine (convertTag_located inside behind.front).bind fun _ _ => ?_
    exact (ih (after_tag ['{', '{'] h)).bind fun _ _ => trivial
  | case7 fuel pos rest _ _ ih => exact (ih h.rest).map fun _ _ => trivial
  | case8 fuel pos c rest _ _ _ ih => exact (ih h.rest).map fun _ _ => trivial

end DoubleBrace

end LiveTemplate
