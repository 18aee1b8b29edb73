/-
What a text is split at the end of. The frames that are open are closed one behind the other, so what
stands before an end is told by a grammar: texts that are closed under strings and braces between two
braces, string texts between quotes, and in a tag values and expressions in braces.
-/
import LiveTemplate.Proofs.Markup.Tag

namespace LiveTemplate.Delimiter

open Text

/-! ## Rows of frames -/

theorem step_append (pos : Nat) (c : Char) (frame : Frame) (fs frames : List Frame) :
    step pos c frame (fs ++ frames) = step pos c frame fs ++ frames := by
  cases frame with
  | brace | quote | value | tag =>
    simp only [step]
    split_ifs <;> rfl

/-- Splits a text behind the last of some frames, and what is behind it behind the last of others. -/
def closeBehind (frames : List Frame) (pos : Nat) (split : List Char × List Char) :
    Except Unclosed (List Char × List Char) :=
  (close frames (pos + byteLength split.1) split.2).map (prepend split.1)

theorem bind_closeBehind (frames : List Frame) (pos : Nat) (front : List Char)
    (split : Except Unclosed (List Char × List Char)) :
    (split.map (prepend front)).bind (closeBehind frames pos) =
      (split.bind (closeBehind frames (pos + byteLength front))).map (prepend front) := by
  rcases split with e | split
  · rfl
  · change closeBehind frames pos (prepend front split) =
      (closeBehind frames (pos + byteLength front) split).map (prepend front)
    simp only [closeBehind, prepend, byteLength_append, map_prepend_prepend, Nat.add_assoc]

/-- Frames are closed one behind the other. -/
theorem close_append (fs frames : List Frame) (pos : Nat) (cs : List Char) :
    close (fs ++ frames) pos cs = (close fs pos cs).bind (closeBehind frames pos) := by
  fun_induction close fs pos cs with
  | case1 pos rest =>
    change close frames pos rest = (close frames pos rest).map (prepend [])
    rcases close frames pos rest with e | split <;> rfl
  | case2 frame fs pos =>
    rw [List.cons_append, close]
    rfl
  | case3 => rfl
  | case4 opened mark fs pos c rest ih =>
    have width : pos + byteLength ['\\', c] = pos + 1 + c.utf8Size := by
      rw [byteLength, byteLength, byteLength, Nat.add_zero, ← Nat.add_assoc]
      rfl
    refine Eq.trans ?_ (bind_closeBehind frames pos ['\\', c] _).symm
    rw [List.cons_append, close_guarded, width, ← ih, List.cons_append]
  | case5 opened mark fs pos rest outer inner ih =>
    refine Eq.trans ?_ (bind_closeBehind frames pos ['$', '{'] _).symm
    have width : pos + byteLength ['$', '{'] = pos + 2 := rfl
    rw [List.cons_append, close_dollar, width, ← ih]
    simp only [inner, outer]
    split <;> rfl
  | case6 frame fs pos c rest guard dollar ih =>
    have width : pos + byteLength [c] = pos + c.utf8Size := rfl
    refine Eq.trans ?_ (bind_closeBehind frames pos [c] _).symm
    rw [List.cons_append, close, width, ← ih, step_append]
    · rfl
    · exact guard
    · exact dollar

/-- What is gone over up to the end of a frame that stands in others is gone over for it and then for
them. -/
theorem parts_of_close {frame : Frame} {frames : List Frame} {pos : Nat} {cs inside after : List Char}
    (h : close (frame :: frames) pos cs = .ok (inside, after)) :
    ∃ first middle second, close [frame] pos cs = .ok (first, middle) ∧
      close frames (pos + byteLength first) middle = .ok (second, after) ∧
      inside = first ++ second := by
  rw [← List.singleton_append, close_append] at h
  rcases split : close [frame] pos cs with unclosed | ⟨first, middle⟩
  · rw [split] at h
    cases h
  · rw [split] at h
    change (close frames (pos + byteLength first) middle).map (prepend first) = _ at h
    obtain ⟨⟨second, rest⟩, behind, eq⟩ := results_of_map h
    cases eq
    exact ⟨first, middle, second, rfl, behind, rfl⟩

/-! ## Tags -/

/-- Texts that stand in a tag, in which a `>` stands in a value between quotes or in braces only. -/
inductive Tagged : List Char → Prop
  | nil : Tagged []
  | plain {c : Char} {rest : List Char} : c ∉ ['>', '"', '\'', '{'] → Tagged rest → Tagged (c :: rest)
  | value {mark : Char} {value rest : List Char} : mark = '"' ∨ mark = '\'' → mark ∉ value →
    Tagged rest → Tagged (mark :: (value ++ mark :: rest))
  | braces {inside rest : List Char} : Enclosed none inside → Tagged rest →
    Tagged ('{' :: (inside ++ '}' :: rest))

/-- A text of a tag is gone over. -/
theorem Tagged.passes {text : List Char} (h : Tagged text) (opened : Nat) :
    Passes (.tag opened) text := by
  induction h with
  | nil => exact .nil _
  | plain free _ ih =>
    exact Passes.append (a := [_]) (passes_tag opened (List.forall_mem_singleton.2 free)) ih
  | @value mark value rest hm unmarked _ ih =>
    have whole : mark :: (value ++ mark :: rest) = (mark :: (value ++ [mark])) ++ rest := by simp
    rw [whole]
    exact (passes_tag_value opened hm unmarked).append ih
  | @braces inside rest enclosed _ ih =>
    have whole : '{' :: (inside ++ '}' :: rest) = ('{' :: (inside ++ ['}'])) ++ rest := by simp
    rw [whole]
    exact (passes_tag_expr opened enclosed).append ih

/-! ## What stands before an end -/

section

variable {opened pos : Nat} {mark : Char} {cs inside after : List Char}

theorem enclosed_of_close (h : close [.brace opened 0] pos cs = .ok (inside, after)) :
    ∃ text, inside = text ++ ['}'] ∧ Enclosed none text := by
  cases closing_of_close h (List.forall_mem_singleton.2 trivial) with
  | last enclosed outer =>
    cases outer
    exact ⟨_, rfl, enclosed⟩

theorem string_of_close (quote : isQuote mark = true)
    (h : close [.quote opened mark] pos cs = .ok (inside, after)) :
    ∃ text, inside = text ++ [mark] ∧ Enclosed (some mark) text := by
  cases closing_of_close h (List.forall_mem_singleton.2 quote) with
  | quote enclosed outer =>
    cases outer
    exact ⟨_, rfl, enclosed⟩

theorem value_of_close (h : close [.value opened mark] pos cs = .ok (inside, after)) :
    ∃ value, inside = value ++ [mark] ∧ mark ∉ value := by
  induction cs generalizing pos inside with
  | nil =>
    rw [close] at h
    cases h
  | cons c cs ih =>
    rw [close_value, step] at h
    obtain ⟨⟨passed, rest⟩, hp, eq⟩ := results_of_map h
    cases eq
    split at hp
    case isTrue closes =>
      obtain rfl := beq_iff_eq.1 closes
      rw [close_nil] at hp
      cases hp
      exact ⟨[], rfl, List.not_mem_nil⟩
    case isFalse other =>
      obtain ⟨value, rfl, unmarked⟩ := ih hp
      refine ⟨c :: value, rfl, ?_⟩
      simpa [unmarked] using Ne.symm (by simpa using other : c ≠ mark)

theorem tagged_of_close (h : close [.tag opened] pos cs = .ok (inside, after)) :
    ∃ text, inside = text ++ ['>'] ∧ Tagged text := by
  -- by induction on the length of the text, since behind a value the tag goes on
  induction hn : cs.length using Nat.strong_induction_on generalizing pos cs inside with
  | _ n ih =>
    subst hn
    rcases cs with _ | ⟨c, cs⟩
    · rw [close] at h
      cases h
    rw [close_tag, step] at h
    obtain ⟨⟨passed, rest⟩, hp, eq⟩ := results_of_map h
    cases eq
    have behind {q : Nat} (front : List Char) {middle text : List Char} (whole : cs = front ++ middle)
        (split : close [.tag opened] q middle = .ok (text, rest)) :
        ∃ tagged, text = tagged ++ ['>'] ∧ Tagged tagged := by
      refine ih _ ?_ split rfl
      rw [whole, List.length_cons, List.length_append]
      omega
    split_ifs at hp with closes quote opens
    · obtain rfl := beq_iff_eq.1 closes
      rw [close_nil] at hp
      cases hp
      exact ⟨[], rfl, .nil⟩
    · obtain ⟨first, middle, second, inner, outer, rfl⟩ := parts_of_close hp
      obtain ⟨value, rfl, unmarked⟩ := value_of_close inner
      obtain ⟨text, rfl, tagged⟩ := behind _ (eq_of_close inner) outer
      have mark : c = '"' ∨ c = '\'' := by simpa using quote
      exact ⟨c :: (value ++ c :: text), by simp, .value mark unmarked tagged⟩
    · obtain rfl := beq_iff_eq.1 opens
      obtain ⟨first, middle, second, inner, outer, rfl⟩ := parts_of_close hp
      obtain ⟨expr, rfl, enclosed⟩ := enclosed_of_close inner
      obtain ⟨text, rfl, tagged⟩ := behind _ (eq_of_close inner) outer
      exact ⟨'{' :: (expr ++ '}' :: text), by simp, .braces enclosed tagged⟩
    · obtain ⟨text, rfl, tagged⟩ := behind [] rfl hp
      refine ⟨c :: text, rfl, .plain ?_ tagged⟩
      simp only [beq_iff_eq, Bool.or_eq_true, not_or] at closes quote opens
      simp [closes, quote, opens]

end

/-- A frame as it is opened. -/
def Frame.Fresh : Frame → Prop
  | brace _ depth => depth = 0
  | quote _ mark | value _ mark => isQuote mark = true
  | tag _ => True

/-- What stands in a frame. -/
def Frame.Holds (text : List Char) : Frame → Prop
  | brace _ _ => Enclosed none text
  | quote _ mark => Enclosed (some mark) text
  | value _ mark => mark ∉ text
  | tag _ => Tagged text

/-- The texts that a frame holds are those that stand before the character that closes it. -/
theorem close_eq_iff {frame : Frame} (fresh : frame.Fresh) (pos : Nat) (cs inside after : List Char) :
    close [frame] pos cs = .ok (inside, after) ↔
      cs = inside ++ after ∧ ∃ text, inside = text ++ [frame.closer] ∧ frame.Holds text := by
  constructor
  · intro h
    refine ⟨eq_of_close h, ?_⟩
    cases frame with
    | brace opened depth =>
      obtain rfl : depth = 0 := fresh
      exact enclosed_of_close h
    | quote => exact string_of_close fresh h
    | value => exact value_of_close h
    | tag => exact tagged_of_close h
  · rintro ⟨rfl, text, rfl, holds⟩
    rw [List.append_assoc, List.singleton_append]
    cases frame with
    | brace opened depth =>
      obtain rfl : depth = 0 := fresh
      have closing (p : Nat) : step p '}' (.brace opened 0) [] = [] := rfl
      rw [Frame.closer, holds.goneOver opened 0, close_brace, closing, close_nil]
      rfl
    | quote opened mark =>
      rw [Frame.closer, holds.goneOver fresh opened, close_nil]
      exact congrArg (fun text => Except.ok (text, after)) (List.append_nil _)
    | value opened mark =>
      rw [Frame.closer, close_value_quote _ _ _ _ _ _ holds, close_nil]
      exact congrArg (fun text => Except.ok (text, after)) (List.append_nil _)
    | tag opened =>
      have closing (p : Nat) : step p '>' (.tag opened) [] = [] := rfl
      rw [Frame.closer, holds.passes opened, close_tag, closing, close_nil]
      rfl

end LiveTemplate.Delimiter
