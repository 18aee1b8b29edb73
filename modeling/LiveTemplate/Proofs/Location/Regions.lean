/-
Places in a text. A boundary is an offset that no character straddles, and a span fits a text if it
leads from one boundary to the same or a later one. What is cut from a region of a text is a region
of the text again, so all that is read from it can be located; and a delimiter without its partner
is found where it was opened.
-/
import LiveTemplate.Proofs.Computation
import LiveTemplate.Proofs.Expr.Literals
import LiveTemplate.Proofs.Text.Trimming

namespace LiveTemplate

open Text Delimiter

variable {text tail : List Char}

/-! ## Boundaries and spans -/

/-- An offset between two characters of a text, or at one of its ends. -/
def Text.Boundary (text : List Char) (n : Nat) : Prop :=
  ∃ before after, text = before ++ after ∧ byteLength before = n

/-- A span from one boundary of a text to the same or a later one. -/
structure Span.Fits (text : List Char) (s : Span) : Prop where
  start : Boundary text s.start
  stop : Boundary text s.stop
  ordered : s.start ≤ s.stop

theorem Text.Boundary.empty {n : Nat} (h : Boundary text n) : (Span.empty n).Fits text :=
  ⟨h, h, Nat.le_refl n⟩

theorem Span.Fits.union {a b : Span} (ha : a.Fits text) (hb : b.Fits text) :
    (a.union b).Fits text where
  start := by
    show Boundary text (min a.start b.start)
    rcases min_choice a.start b.start with h | h
    · rw [h]
      exact ha.start
    · rw [h]
      exact hb.start
  stop := by
    show Boundary text (max a.stop b.stop)
    rcases max_choice a.stop b.stop with h | h
    · rw [h]
      exact ha.stop
    · rw [h]
      exact hb.stop
  ordered := le_max_of_le_left ((min_le_left _ _).trans ha.ordered)

/-- Between two boundaries stands a piece of the text. -/
theorem Span.Fits.pieces {s : Span} (h : s.Fits text) : ∃ before inside after,
    text = before ++ inside ++ after ∧ byteLength before = s.start ∧
      byteLength inside = s.stop - s.start := by
  obtain ⟨before, rest, eq, start⟩ := h.start
  obtain ⟨read, after, eq', stop⟩ := h.stop
  have ordered := h.ordered
  -- the shorter of two beginnings of a text begins the longer one
  rcases List.append_eq_append_iff.1 (eq.symm.trans eq') with ⟨more, rfl, rfl⟩ | ⟨more, rfl, rfl⟩
  · rw [byteLength_append] at stop
    exact ⟨before, more, after, by rw [eq, List.append_assoc], start, by omega⟩
  · rw [byteLength_append] at start
    refine ⟨read ++ more, [], rest, by simp [eq], ?_, ?_⟩
    · rw [byteLength_append]
      omega
    · rw [byteLength]
      omega

/-! ## Cuts -/

theorem dropBytes_append : ∀ before after : List Char,
    dropBytes (byteLength before) (before ++ after) = after
  | [], [] => rfl
  | [], c :: after => by simp [byteLength, dropBytes]
  | c :: before, after => by
    have size := c.utf8Size_pos
    rw [List.cons_append, dropBytes, byteLength, if_neg (by omega), Nat.add_sub_cancel_left]
    exact dropBytes_append before after

theorem takeBytes_append : ∀ before after : List Char,
    takeBytes (byteLength before) (before ++ after) = before
  | [], [] => rfl
  | [], c :: after => by
    have size := c.utf8Size_pos
    rw [List.nil_append, takeBytes, byteLength, if_neg (by omega)]
  | c :: before, after => by
    rw [List.cons_append, takeBytes, byteLength, if_pos (Nat.le_add_right _ _),
      Nat.add_sub_cancel_left, takeBytes_append before after]

/-- A span that fits is cut out as it stands. -/
theorem Span.Fits.byteLength_slice {s : Span} (h : s.Fits text) :
    byteLength (slice s.start s.stop text) = s.stop - s.start := by
  obtain ⟨before, inside, after, rfl, start, length⟩ := h.pieces
  rw [slice, ← start, List.append_assoc, dropBytes_append, start, ← length, takeBytes_append]

/-! ## Regions -/

namespace Region

theorem dropWhile_text (p : Char → Bool) (r : Region) :
    (r.dropWhile p).text = r.text.dropWhile p := by
  have whole := List.takeWhile_append_dropWhile (p := p) (l := r.text)
  show r.text.drop (r.text.takeWhile p).length = _
  generalize r.text.takeWhile p = front, r.text.dropWhile p = back at whole ⊢
  rw [← whole, List.drop_left]

theorem trim_text (r : Region) : r.trim.text = Text.trim r.text := by
  show trimEnd (r.dropWhile isBlank).text = _
  rw [dropWhile_text]
  rfl

/-- Trimming takes off the blanks around a trimmed text and moves the start behind those before it. -/
theorem trim_eq (start : Nat) {l cs r : List Char} (hl : ∀ c ∈ l, isBlank c = true)
    (hr : ∀ c ∈ r, isBlank c = true) (h : Trimmed cs) (hn : cs ≠ []) :
    trim ⟨start, l ++ (cs ++ r)⟩ = ⟨start + byteLength l, cs⟩ := by
  have blanks : (l ++ (cs ++ r)).takeWhile isBlank = l := by
    obtain ⟨c, more, rfl⟩ := List.exists_cons_of_ne_nil hn
    rw [List.takeWhile_append_of_pos hl, List.cons_append,
      List.takeWhile_cons_of_neg (by simp [h.head c rfl]), List.append_nil]
  unfold trim dropWhile drop
  simp only [blanks, List.take_left, List.drop_left, h.trimEnd_append hn hr]

/-- A region is the piece of a text at its offset, and `tail` follows it. -/
def Before (text tail : List Char) (r : Region) : Prop :=
  ∃ before, text = before ++ (r.text ++ tail) ∧ byteLength before = r.start

/-- A region is the piece of a text at its offset. -/
def Within (text : List Char) (r : Region) : Prop := ∃ tail, r.Before text tail

theorem Before.within {r : Region} (h : r.Before text tail) : r.Within text := ⟨tail, h⟩

theorem within_whole (source : String) : (whole source).Within source.toList :=
  ⟨[], [], by simp [whole], rfl⟩

theorem Before.left {pos : Nat} {a b : List Char} (h : Before text tail ⟨pos, a ++ b⟩) :
    Before text (b ++ tail) ⟨pos, a⟩ := by
  obtain ⟨before, eq, start⟩ := h
  exact ⟨before, by simpa using eq, start⟩

theorem Before.right {pos : Nat} {a b : List Char} (h : Before text tail ⟨pos, a ++ b⟩) :
    Before text tail ⟨pos + byteLength a, b⟩ := by
  obtain ⟨before, eq, start⟩ := h
  refine ⟨before ++ a, by simpa using eq, ?_⟩
  rw [byteLength_append]
  exact congrArg (· + byteLength a) start

theorem Within.left {pos : Nat} {a b : List Char} (h : Within text ⟨pos, a ++ b⟩) :
    Within text ⟨pos, a⟩ :=
  h.imp' _ fun _ ht => ht.left

theorem Within.right {pos : Nat} {a b : List Char} (h : Within text ⟨pos, a ++ b⟩) :
    Within text ⟨pos + byteLength a, b⟩ :=
  h.imp fun _ ht => ht.right

/-- The rest of a region, whose length tells where it starts. -/
theorem Within.behind {pos : Nat} {a b : List Char} (h : Within text ⟨pos, a ++ b⟩) :
    Within text ⟨pos + byteLength ((a ++ b).take ((a ++ b).length - b.length)), b⟩ := by
  rw [List.length_append, Nat.add_sub_cancel_right, List.take_left]
  exact h.right

theorem Within.rest {pos : Nat} {c : Char} {rest : List Char} (h : Within text ⟨pos, c :: rest⟩) :
    Within text ⟨pos + c.utf8Size, rest⟩ :=
  Within.right (a := [c]) h

theorem Before.drop {r : Region} (h : r.Before text tail) (n : Nat) : (r.drop n).Before text tail :=
  Before.right (by rwa [List.take_append_drop])

theorem Within.drop {r : Region} (h : r.Within text) (n : Nat) : (r.drop n).Within text :=
  h.imp fun _ ht => ht.drop n

theorem Within.take {r : Region} (h : r.Within text) (n : Nat) : (r.take n).Within text :=
  Within.left (b := r.text.drop n) (by rwa [List.take_append_drop])

theorem Within.trim {r : Region} (h : r.Within text) : r.trim.Within text := by
  obtain ⟨blanks, eq, -⟩ := trimEnd_prefix (r.dropWhile isBlank).text
  refine Within.left (b := blanks) ?_
  rw [← eq]
  exact h.drop _

theorem Within.dropLast {pos : Nat} {cs : List Char} (h : Within text ⟨pos, cs⟩) :
    Within text ⟨pos, cs.dropLast⟩ := by
  rw [List.dropLast_eq_take]
  exact h.take _

theorem Within.start {r : Region} (h : r.Within text) : Boundary text r.start := by
  obtain ⟨tail, before, eq, start⟩ := h
  exact ⟨before, _, eq, start⟩

theorem Within.stop {r : Region} (h : r.Within text) : Boundary text r.stop := by
  obtain ⟨tail, before, eq, start⟩ := h
  refine ⟨before ++ r.text, tail, by rw [eq, List.append_assoc], ?_⟩
  rw [byteLength_append, start, Region.stop]

theorem Within.span {r : Region} (h : r.Within text) : r.span.Fits text :=
  ⟨h.start, h.stop, Nat.le_add_right _ _⟩

/-- The span of the first characters of a region. -/
theorem Within.front {pos : Nat} {a b : List Char} (h : Within text ⟨pos, a ++ b⟩) :
    Span.Fits text ⟨pos, pos + byteLength a⟩ :=
  h.left.span

theorem start_le_drop (r : Region) (n : Nat) : r.start ≤ (r.drop n).start :=
  Nat.le_add_right _ _

theorem start_le_dropWhile (r : Region) (p : Char → Bool) : r.start ≤ (r.dropWhile p).start :=
  r.start_le_drop _

end Region

/-! ## Computations -/

/-- A computation on a text gives what has a property, or a fault whose span fits the text. -/
def Locates {α : Type} (text : List Char) (P : α → Prop) : Except Fault α → Prop
  | .ok a => P a
  | .error fault => fault.span.Fits text

namespace Locates

variable {α β : Type} {P : α → Prop} {Q : β → Prop} {x : Except Fault α}

theorem bind {f : α → Except Fault β} (h : Locates text P x) (hf : ∀ a, P a → Locates text Q (f a)) :
    Locates text Q (x >>= f) := by
  cases x with
  | error fault => exact h
  | ok a => exact hf a h

theorem map {f : α → β} (h : Locates text P x) (hf : ∀ a, P a → Q (f a)) :
    Locates text Q (x.map f) := by
  cases x with
  | error fault => exact h
  | ok a => exact hf a h

theorem of_mapError {ε : Type} {f : Fault → ε} {a : α} (h : Locates text P x)
    (ha : x.mapError f = .ok a) : P a := by
  cases x with
  | error fault => cases ha
  | ok a =>
    cases ha
    exact h

theorem ite {c : Prop} [Decidable c] {y : Except Fault α} (hx : c → Locates text P x)
    (hy : ¬c → Locates text P y) : Locates text P (if c then x else y) := by
  split
  · exact hx ‹_›
  · exact hy ‹_›

/-- What every round of a fold keeps holds at the end. -/
theorem foldlM {f : β → α → Except Fault β} : ∀ {xs : List α} {b : β}, Q b →
    (∀ b, ∀ a ∈ xs, Q b → Locates text Q (f b a)) → Locates text Q (xs.foldlM f b)
  | [], _, hb, _ => hb
  | a :: xs, b, hb, h => by
    rw [List.foldlM_cons]
    exact (h b a (by simp) hb).bind fun b' hb' => foldlM hb' fun b x hx => h b x (by simp [hx])

end Locates

/-! ## Delimiters -/

namespace Delimiter

/-- Where a frame was opened. -/
def Frame.opened : Frame → Nat
  | brace opened _ | quote opened _ | value opened _ | tag opened => opened

/-- Where a delimiter without its partner stands. -/
def Unclosed.offset : Unclosed → Nat
  | brace offset | quote offset | tag offset => offset

/-- All frames were opened by one byte of a text. -/
def Opened (text : List Char) (frames : List Frame) : Prop :=
  ∀ frame ∈ frames, Span.Fits text ⟨frame.opened, frame.opened + 1⟩

/-- Splitting a text loses nothing of it, and a delimiter without its partner is one byte of the
text around. -/
def Splits (text cs : List Char) : Except Unclosed (List Char × List Char) → Prop
  | .ok (inside, after) => cs = inside ++ after
  | .error unclosed => Span.Fits text ⟨unclosed.offset, unclosed.offset + 1⟩

theorem utf8Size_of_isQuote {c : Char} (h : isQuote c = true) : c.utf8Size = 1 := by
  simp only [isQuote, Bool.or_eq_true, beq_iff_eq] at h
  rcases h with (rfl | rfl) | rfl <;> rfl

/-- What is open after a character was open before, or is opened by the character. -/
theorem mem_step {pos : Nat} {c : Char} {frame f : Frame} {frames : List Frame}
    (h : f ∈ step pos c frame frames) :
    f ∈ frames ∨ f.opened = frame.opened ∨ (f.opened = pos ∧ c.utf8Size = 1) := by
  have brace (hc : c == '{') : c.utf8Size = 1 := by
    rw [beq_iff_eq.1 hc]
    rfl
  have quote (hc : c == '"' || c == '\'') : c.utf8Size = 1 :=
    utf8Size_of_isQuote (by rw [isQuote, hc, Bool.true_or])
  cases frame <;> simp only [step] at h <;> grind [Frame.opened, utf8Size_of_isQuote]

theorem opened_step {pos : Nat} {c : Char} {rest : List Char} {frame : Frame} {frames : List Frame}
    (hf : Opened text (frame :: frames)) (h : Region.Within text ⟨pos, c :: rest⟩) :
    Opened text (step pos c frame frames) := by
  intro f hm
  rcases mem_step hm with outer | same | ⟨here, one⟩
  · exact hf f (List.mem_cons_of_mem _ outer)
  · rw [same]
    exact hf frame List.mem_cons_self
  · have fits := h.front (a := [c])
    rwa [byteLength, byteLength, one, ← here] at fits

theorem Splits.extend (front : List Char) {cs : List Char}
    {x : Except Unclosed (List Char × List Char)} (h : Splits text cs x) :
    Splits text (front ++ cs) (x.map (prepend front)) := by
  cases x with
  | error unclosed => exact h
  | ok split => exact (congrArg (front ++ ·) h).trans (List.append_assoc _ _ _).symm

theorem close_splits (frames : List Frame) (pos : Nat) (cs : List Char) (hf : Opened text frames)
    (h : Region.Within text ⟨pos, cs⟩) : Splits text cs (close frames pos cs) := by
  fun_induction close frames pos cs with
  | case1 => rfl
  | case2 frame =>
    have fits := hf frame List.mem_cons_self
    cases frame <;> exact fits
  | case3 => exact hf _ List.mem_cons_self
  | case4 opened mark frames pos c rest ih =>
    have behind : Region.Within text ⟨pos + 1 + c.utf8Size, rest⟩ := h.rest.rest
    exact (ih hf behind).extend ['\\', c]
  | case5 opened mark frames pos rest outer inner ih =>
    have behind := h.right (a := ['$', '{'])
    refine (ih ?_ behind).extend ['$', '{']
    unfold inner
    split
    · refine List.forall_mem_cons.2 ⟨?_, hf⟩
      exact h.rest.front (a := ['{'])
    · exact hf
  | case6 frame frames pos c rest _ _ ih =>
    exact (ih (opened_step hf h) h.rest).extend [c]

theorem closeBrace_splits {opened : Nat} {rest : List Char}
    (h : Region.Within text ⟨opened, '{' :: rest⟩) : Splits text rest (closeBrace opened rest) :=
  close_splits _ _ _ (List.forall_mem_singleton.2 (h.front (a := ['{']))) h.rest

theorem closeQuote_splits {opened : Nat} {mark : Char} {rest : List Char}
    (hq : isQuote mark = true) (h : Region.Within text ⟨opened, mark :: rest⟩) :
    Splits text rest (closeQuote opened mark rest) := by
  have one := utf8Size_of_isQuote hq
  have front := h.front (a := [mark])
  have behind := h.rest
  rw [byteLength, byteLength, one] at front
  rw [one] at behind
  exact close_splits _ _ _ (List.forall_mem_singleton.2 front) behind

/-- Splitting a text loses nothing of it. -/
theorem eq_of_close {frames : List Frame} {pos : Nat} {cs inside after : List Char}
    (h : close frames pos cs = .ok (inside, after)) : cs = inside ++ after := by
  fun_induction close frames pos cs generalizing inside with
  | case1 =>
    cases h
    rfl
  | case2 => cases h
  | case3 => cases h
  | case4 | case5 | case6 =>
    rename_i ih
    obtain ⟨⟨passed, rest⟩, hp, eq⟩ := results_of_map h
    cases eq
    simp only [List.cons_append, ← ih hp]

/-- The character that closes a frame. -/
def Frame.closer : Frame → Char
  | brace _ _ => '}'
  | quote _ mark | value _ mark => mark
  | tag _ => '>'

/-- The outermost frame stays open until its character closes it. -/
theorem closer_step {m : Char} {frame : Frame} {frames : List Frame}
    (h : (frame :: frames).getLast?.map Frame.closer = some m) (pos : Nat) (c : Char) :
    step pos c frame frames = [] ∧ c = m ∨
      (step pos c frame frames).getLast?.map Frame.closer = some m := by
  cases frames with
  | nil =>
    obtain rfl : frame.closer = m := by simpa using h
    cases frame <;> simp only [step] <;> split_ifs <;> simp_all [Frame.closer]
  | cons outer frames =>
    rw [List.getLast?_cons_cons] at h
    -- whatever the innermost frame becomes, the outer ones stay
    right
    cases frame <;> simp only [step] <;> split_ifs <;> simp only [List.getLast?_cons_cons, h]

theorem getLast?_of_close {m : Char} {frames : List Frame} {pos : Nat} {cs inside after : List Char}
    (h : close frames pos cs = .ok (inside, after))
    (hm : frames.getLast?.map Frame.closer = some m) : inside.getLast? = some m := by
  fun_induction close frames pos cs generalizing inside with
  | case1 => simp at hm
  | case2 => cases h
  | case3 => cases h
  | case4 quote mark frames pos c rest ih =>
    obtain ⟨⟨passed, rest⟩, hp, eq⟩ := results_of_map h
    cases eq
    simp [List.getLast?_cons, ih hp hm]
  | case5 quote mark frames pos rest outer inner =>
    rename_i ih
    obtain ⟨⟨passed, rest⟩, hp, eq⟩ := results_of_map h
    cases eq
    have last : inner.getLast? = outer.getLast? := by
      unfold inner
      split <;> rfl
    simp [List.getLast?_cons, ih hp (by rwa [last])]
  | case6 frame frames pos c rest _ _ ih =>
    obtain ⟨⟨passed, rest⟩, hp, eq⟩ := results_of_map h
    cases eq
    rcases closer_step hm pos c with ⟨closed, rfl⟩ | still
    · rw [closed, close] at hp
      cases hp
      rfl
    · simp [List.getLast?_cons, ih hp still]

end Delimiter

end LiveTemplate
