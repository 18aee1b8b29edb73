/-
The scans for delimiters on the bytes of a text. The bytes of a character that is not of ASCII are
none of the delimiters, so on the bytes of a text a scan comes to its end where the text is split.
-/
import LiveTemplate.Proofs.Delimiter.Bytes
import LiveTemplate.Proofs.Delimiter.Matching

namespace LiveTemplate.Delimiter

open Text

/-! ## Bytes of characters -/

/-- The bytes of a text. -/
def utf8 (cs : List Char) : List UInt8 := cs.flatMap String.utf8EncodeChar

theorem utf8_cons (c : Char) (cs : List Char) : utf8 (c :: cs) = String.utf8EncodeChar c ++ utf8 cs :=
  List.flatMap_cons

theorem utf8_append (a b : List Char) : utf8 (a ++ b) = utf8 a ++ utf8 b := List.flatMap_append

theorem length_utf8 : ∀ cs : List Char, (utf8 cs).length = byteLength cs
  | [] => rfl
  | c :: cs => by
    rw [utf8_cons, List.length_append, String.length_utf8EncodeChar, length_utf8 cs, byteLength]

/-- A byte tells a character apart from those of ASCII. -/
def Tells (b : UInt8) (c : Char) : Prop := ∀ d : Char, d.toNat < 128 → (b = d.toUInt8 ↔ c = d)

theorem toNat_toUInt8 {c : Char} (h : c.toNat < 128) : c.toUInt8.toNat = c.toNat := by
  change c.toNat % 256 = c.toNat
  omega

theorem tells_toUInt8 {c : Char} (ascii : c.toNat < 128) : Tells c.toUInt8 c := by
  refine fun d hd => ⟨fun same => ?_, fun same => by rw [same]⟩
  have codes := congrArg UInt8.toNat same
  rw [toNat_toUInt8 ascii, toNat_toUInt8 hd] at codes
  exact Char.toNat_inj.1 codes

/-- The first byte of a character tells it, and the others are none of ASCII. -/
theorem utf8EncodeChar_tells (c : Char) : ∃ b more, String.utf8EncodeChar c = b :: more ∧
    Tells b c ∧ ∀ x ∈ more, 128 ≤ x.toNat := by
  by_cases ascii : c.toNat < 128
  · have one : c.utf8Size = 1 := by
      rw [Char.utf8Size_eq_one_iff, UInt32.le_iff_toNat_le]
      change c.toNat ≤ 127
      omega
    exact ⟨c.toUInt8, [], String.utf8EncodeChar_eq_singleton one, tells_toUInt8 ascii, by simp⟩
  · have high : ∀ x ∈ String.utf8EncodeChar c, 128 ≤ x.toNat := by
      have wide : ¬ c.val.toNat ≤ 127 := fun h => ascii (Nat.lt_succ_of_le h)
      simp only [String.utf8EncodeChar]
      split_ifs <;> simp <;> omega
    rcases bytes : String.utf8EncodeChar c with _ | ⟨b, more⟩
    · exact absurd bytes (String.utf8EncodeChar_ne_nil)
    rw [bytes] at high
    obtain ⟨first, others⟩ := List.forall_mem_cons.1 high
    refine ⟨b, more, rfl, fun d hd => ⟨fun same => ?_, fun same => ?_⟩, others⟩
    · have codes := congrArg UInt8.toNat same
      rw [toNat_toUInt8 hd] at codes
      omega
    · exact absurd hd (same ▸ ascii)

/-- The bytes from an offset on are those of a text. -/
def At (s : List UInt8) (pos : Nat) (cs : List Char) : Prop := s.drop pos = utf8 cs

namespace At

variable {s : List UInt8} {pos : Nat} {c : Char} {cs : List Char}

theorem behind {a : List Char} (h : At s pos (a ++ cs)) : At s (pos + byteLength a) cs := by
  rw [At, ← List.drop_drop, h, utf8_append, ← length_utf8, List.drop_left]

theorem next (h : At s pos (c :: cs)) : At s (pos + c.utf8Size) cs := behind (a := [c]) h

theorem nil (h : At s pos []) : s[pos]? = none := by
  rw [List.getElem?_eq_none_iff, ← List.drop_eq_nil_iff]
  exact h

theorem byte (h : At s pos (c :: cs)) : ∃ b, s[pos]? = some b ∧ Tells b c := by
  obtain ⟨b, more, bytes, tells, -⟩ := utf8EncodeChar_tells c
  refine ⟨b, ?_, tells⟩
  have first : (s.drop pos)[0]? = s[pos]? := List.getElem?_drop
  rw [h, utf8_cons, bytes] at first
  exact first.symm

/-- The byte at an offset is one of ASCII just if the character there is. -/
theorem byte_eq_iff (h : At s pos cs) {d : Char} (hd : d.toNat < 128) :
    s[pos]? = some d.toUInt8 ↔ cs.head? = some d := by
  rcases cs with _ | ⟨c, cs⟩
  · rw [h.nil]
    simp
  · obtain ⟨b, here, tells⟩ := h.byte
    rw [here, Option.some_inj, tells d hd, List.head?_cons, Option.some_inj]

end At

/-! ## Scans and frames -/

/-- The scan for the end of a frame. -/
def Frame.scan : Frame → Scan
  | brace opened depth => .braces opened (depth + 1)
  | quote opened mark => .quoted opened mark.toUInt8 true
  | value opened mark => .quoted opened mark.toUInt8 false
  | tag opened => .tag opened

/-- Strings and attribute values are closed by quotes. -/
def Frame.Marked : Frame → Prop
  | quote _ mark | value _ mark => isQuote mark = true
  | brace _ _ | tag _ => True

/-- A character of a text means nothing but itself to a frame: in a string, it does not guard the next
one and opens no hole with it. -/
def Frame.Plain (c : Char) (rest : List Char) : Frame → Prop
  | quote _ mark => c ≠ '\\' ∧ (mark = '\x60' → c = '$' → rest.head? ≠ some '{')
  | _ => True

theorem toNat_of_isQuote {mark : Char} (h : isQuote mark = true) : mark.toNat < 128 := by
  simp only [isQuote, Bool.or_eq_true, beq_iff_eq] at h
  rcases h with (rfl | rfl) | rfl <;> decide

theorem Frame.unclosed_scan (frame : Frame) : frame.scan.unclosed = frame.unclosed := by
  cases frame <;> rfl

/-- The scan for a frame is closed by a character of ASCII. -/
theorem Frame.Marked.closer {frame : Frame} (h : frame.Marked) :
    frame.scan.closer.toNat < 128 := by
  cases frame with
  | brace opened depth => exact (by decide : '}'.toUInt8.toNat < 128)
  | tag opened => exact (by decide : '>'.toUInt8.toNat < 128)
  | quote opened mark | value opened mark =>
    have ascii := toNat_of_isQuote h
    exact (toNat_toUInt8 ascii).trans_lt ascii

section Moves

variable {s : List UInt8} {pos : Nat} {c : Char} {rest : List Char}

/-- The first of some braces is gone over as one that opens. -/
theorem move_opening (h : At s pos ('{' :: rest)) (opened : Nat) :
    (Scan.braces opened 0).move s pos = .go (Frame.brace opened 0).scan (pos + 1) := by
  have here := (h.byte_eq_iff (d := '{') (by decide)).2 rfl
  simp only [Scan.move, here, if_true, Frame.scan]

theorem move_brace (h : At s pos (c :: rest)) (opened depth : Nat) :
    (Frame.brace opened depth).scan.move s pos =
      if c = '{' then .go (Frame.brace opened (depth + 1)).scan (pos + 1)
      else if c = '}' then
        if depth = 0 then .done else .go (Frame.brace opened (depth - 1)).scan (pos + 1)
      else if isQuote c then .enter (Frame.quote pos c).scan (pos + 1)
      else .go (Frame.brace opened depth).scan (pos + 1) := by
  obtain ⟨b, here, tells⟩ := h.byte
  have isQuote_iff : c = '"' ∨ c = '\'' ∨ c = '\x60' ↔ isQuote c = true := by
    simp only [isQuote, Bool.or_eq_true, beq_iff_eq, or_assoc]
  simp only [Frame.scan, Scan.move, here, tells '{' (by decide), tells '}' (by decide),
    tells '"' (by decide), tells '\'' (by decide), tells '\x60' (by decide), isQuote_iff]
  split_ifs with opens closes last quote
  · rfl
  · rw [last]
  · cases depth with
    | zero => exact absurd rfl last
    | succ => rfl
  · rw [(tells c (toNat_of_isQuote quote)).2 rfl]
  · rfl

theorem move_quote (h : At s pos (c :: rest)) {mark : Char} (quote : isQuote mark = true)
    (opened : Nat) :
    (Frame.quote opened mark).scan.move s pos =
      if c = '\\' then .go (Frame.quote opened mark).scan (pos + 2)
      else if c = '$' ∧ mark = '\x60' ∧ rest.head? = some '{' then
        .enter (.braces (pos + 1) 0) (pos + 1)
      else if c = mark then .done
      else .go (Frame.quote opened mark).scan (pos + 1) := by
  obtain ⟨b, here, tells⟩ := h.byte
  have ascii := toNat_of_isQuote quote
  have hole : c = '$' ∧ mark = '\x60' ∧ s[pos + 1]? = some '{'.toUInt8 ↔
      c = '$' ∧ mark = '\x60' ∧ rest.head? = some '{' := by
    refine and_congr_right fun dollar => and_congr_right fun _ => ?_
    subst dollar
    exact h.next.byte_eq_iff (by decide)
  simp only [Frame.scan, Scan.move, here, tells '\\' (by decide), tells '$' (by decide),
    tells mark ascii, tells_toUInt8 ascii '\x60' (by decide), and_true, true_and, hole]

theorem move_value (h : At s pos (c :: rest)) {mark : Char} (quote : isQuote mark = true)
    (opened : Nat) :
    (Frame.value opened mark).scan.move s pos =
      if c = mark then .done else .go (Frame.value opened mark).scan (pos + 1) := by
  obtain ⟨b, here, tells⟩ := h.byte
  simp only [Frame.scan, Scan.move, here, tells mark (toNat_of_isQuote quote), Bool.false_eq_true,
    and_false, false_and, if_false]

theorem move_tag (h : At s pos (c :: rest)) (opened : Nat) :
    (Frame.tag opened).scan.move s pos =
      if c = '>' then .done
      else if c = '"' ∨ c = '\'' then .enter (Frame.value pos c).scan (pos + 1)
      else if c = '{' then .enter (.braces pos 0) pos
      else .go (Frame.tag opened).scan (pos + 1) := by
  obtain ⟨b, here, tells⟩ := h.byte
  simp only [Frame.scan, Scan.move, here, tells '{' (by decide), tells '>' (by decide),
    tells '"' (by decide), tells '\'' (by decide)]
  split_ifs with closes quote opens
  · rfl
  · have ascii : c.toNat < 128 := by rcases quote with rfl | rfl <;> decide
    rw [(tells c ascii).2 rfl]
  · rfl
  · rfl

end Moves

/-- What the step over a character leaves open of a frame, and what the scan does there. -/
def Frame.Follows (s : List UInt8) (pos : Nat) (c : Char) (frame : Frame) : List Frame → Prop
  | [] => frame.scan.move s pos = .done ∧ c.utf8Size = 1
  | [next] => frame.scan.move s pos = .go next.scan (pos + 1) ∧ next.Marked
  | [inner, outer] => outer = frame ∧ inner.Marked ∧ ∃ scan start,
      frame.scan.move s pos = .enter scan start ∧
        ∀ out, ScanEnds s inner.scan (pos + 1) out → ScanEnds s scan start out
  | _ => False

/-- The scan does at the first byte of a character what the step over the character says. -/
theorem follows_step {s : List UInt8} {pos : Nat} {c : Char} {rest : List Char} {frame : Frame}
    (h : At s pos (c :: rest)) (plain : frame.Plain c rest) (marked : frame.Marked) :
    frame.Follows s pos c (step pos c frame []) := by
  cases frame with
  | brace opened depth =>
    have move := move_brace h opened depth
    simp only [step, beq_iff_eq]
    split_ifs at move ⊢ with opens closes last quote
    · exact ⟨move, trivial⟩
    · exact ⟨move, closes ▸ rfl⟩
    · exact ⟨move, trivial⟩
    · exact ⟨rfl, quote, _, _, move, fun _ ends => ends⟩
    · exact ⟨move, trivial⟩
  | quote opened mark =>
    have move := move_quote h marked opened
    have template : ¬ (c = '$' ∧ mark = '\x60' ∧ rest.head? = some '{') := by
      rintro ⟨dollar, template, brace⟩
      exact plain.2 template dollar brace
    rw [if_neg plain.1, if_neg template] at move
    simp only [step, beq_iff_eq]
    split_ifs at move ⊢ with closes
    · exact ⟨move, closes ▸ utf8Size_of_isQuote marked⟩
    · exact ⟨move, marked⟩
  | value opened mark =>
    have move := move_value h marked opened
    simp only [step, beq_iff_eq]
    split_ifs at move ⊢ with closes
    · exact ⟨move, closes ▸ utf8Size_of_isQuote marked⟩
    · exact ⟨move, marked⟩
  | tag opened =>
    have move := move_tag h opened
    simp only [step, beq_iff_eq, Bool.or_eq_true]
    split_ifs at move ⊢ with closes quote opens
    · exact ⟨move, closes ▸ rfl⟩
    · refine ⟨rfl, ?_, _, _, move, fun _ ends => ends⟩
      rcases quote with rfl | rfl <;> rfl
    · refine ⟨rfl, trivial, _, _, move, fun _ ends => .go ?_ ends⟩
      exact move_opening (opens ▸ h) pos
    · exact ⟨move, trivial⟩

/-- A byte that is none of ASCII means nothing to a scan that a character of ASCII closes. -/
theorem Scan.move_high {s : List UInt8} {i : Nat} {b : UInt8} {scan : Scan} (here : s[i]? = some b)
    (high : 128 ≤ b.toNat) (closer : scan.closer.toNat < 128) :
    scan.move s i = .go scan (i + 1) := by
  have other {x : UInt8} (ascii : x.toNat < 128) : b ≠ x := by
    rintro rfl
    omega
  have other' {d : Char} (ascii : d.toUInt8.toNat < 128) : b ≠ d.toUInt8 := other ascii
  cases scan with
  | braces | tag =>
    simp only [move, here, other' (d := '{') (by decide), other' (d := '}') (by decide),
      other' (d := '>') (by decide), other' (d := '"') (by decide), other' (d := '\'') (by decide),
      other' (d := '\x60') (by decide), or_self, if_false]
  | quoted opened mark escapes =>
    have unmarked : b ≠ mark := other closer
    simp only [move, here, other' (d := '\\') (by decide), other' (d := '$') (by decide),
      unmarked, false_and, if_false]

/-- Bytes that are none of ASCII are passed. -/
theorem ScanEnds.passed {s : List UInt8} {scan : Scan} {out : Except Unclosed Nat}
    (closer : scan.closer.toNat < 128) {more tail : List UInt8} (high : ∀ x ∈ more, 128 ≤ x.toNat)
    {i : Nat} (at' : s.drop i = more ++ tail) (h : ScanEnds s scan (i + more.length) out) :
    ScanEnds s scan i out := by
  induction more generalizing i with
  | nil => exact h
  | cons b more ih =>
    obtain ⟨first, others⟩ := List.forall_mem_cons.1 high
    have here : (s.drop i)[0]? = s[i]? := List.getElem?_drop
    rw [at'] at here
    refine .go (Scan.move_high here.symm first closer) (ih others ?_ ?_)
    · rw [← List.drop_drop, at']
      rfl
    · rwa [Nat.add_assoc, Nat.add_comm 1]

/-- Behind the first byte of a character a scan goes on behind the character. -/
theorem At.passed {s : List UInt8} {pos : Nat} {c : Char} {rest : List Char} {frame : Frame}
    {out : Except Unclosed Nat} (h : At s pos (c :: rest)) (marked : frame.Marked)
    (ends : ScanEnds s frame.scan (pos + c.utf8Size) out) :
    ScanEnds s frame.scan (pos + 1) out := by
  obtain ⟨b, more, bytes, -, high⟩ := utf8EncodeChar_tells c
  have size : c.utf8Size = more.length + 1 := by
    rw [← String.length_utf8EncodeChar, bytes, List.length_cons]
  have at' : s.drop (pos + 1) = more ++ utf8 rest := by
    rw [← List.drop_drop, h, utf8_cons, bytes]
    rfl
  refine ScanEnds.passed marked.closer high at' ?_
  rwa [Nat.add_assoc, Nat.add_comm 1, ← size]

/-! ## Splits -/

/-- A frame that a character means nothing else to takes its step over it. -/
theorem close_plain {frame : Frame} {c : Char} {rest : List Char} (plain : frame.Plain c rest)
    (marked : frame.Marked) (frames : List Frame) (pos : Nat) :
    close (frame :: frames) pos (c :: rest) =
      (close (step pos c frame frames) (pos + c.utf8Size) rest).map (prepend [c]) := by
  cases frame with
  | brace | value | tag => exact close_cons (by simp) frames pos c rest
  | quote opened mark =>
    obtain ⟨guard, hole⟩ := plain
    by_cases closes : c = mark
    · have dollar : c ≠ '$' := fun dollar => isQuote_ne marked rfl (dollar.symm.trans closes)
      exact close_quote guard (fun h => absurd h dollar) opened mark frames pos
    · rw [close_char guard closes (isQuote_ne marked rfl) hole, step_quote closes]

/-! ## The end of a scan -/

/-- The offset at which a text is split. -/
def reached (pos : Nat) (split : Except Unclosed (List Char × List Char)) : Except Unclosed Nat :=
  split.map fun split => pos + byteLength split.1

theorem reached_prepend (pos : Nat) (front : List Char)
    (split : Except Unclosed (List Char × List Char)) :
    reached pos (split.map (prepend front)) = reached (pos + byteLength front) split := by
  rcases split with e | split
  · rfl
  · change Except.ok (pos + byteLength (front ++ split.1)) =
      Except.ok (pos + byteLength front + byteLength split.1)
    rw [byteLength_append, Nat.add_assoc]

/-- The scan for a frame comes to its end where the text from there on is split. -/
def Frame.Meets (s : List UInt8) (pos : Nat) (cs : List Char) (frame : Frame) : Prop :=
  ScanEnds s frame.scan pos (reached pos (close [frame] pos cs))

/-- Two frames are left one behind the other, by the text and by the scan. -/
theorem Frame.Meets.both {s : List UInt8} {pos p start : Nat} {cs : List Char} {inner frame : Frame}
    {scan : Scan} (h : At s p cs) (move : frame.scan.move s pos = .enter scan start)
    (entered : ∀ out, ScanEnds s inner.scan p out → ScanEnds s scan start out)
    (within : inner.Meets s p cs)
    (behind : ∀ {q after}, after.length ≤ cs.length → At s q after → frame.Meets s q after) :
    ScanEnds s frame.scan pos (reached p (close [inner, frame] p cs)) := by
  have ends := entered _ within
  rw [show [inner, frame] = [inner] ++ [frame] from rfl, close_append]
  rcases split : close [inner] p cs with unclosed | ⟨inside, after⟩
  · rw [split] at ends
    exact .inner move ends
  · rw [split] at ends
    obtain rfl := eq_of_close split
    have shorter : after.length ≤ (inside ++ after).length := by simp
    have onward := behind shorter h.behind
    rw [Meets, ← reached_prepend] at onward
    exact .enter move ends onward

section

variable {s : List UInt8} {pos : Nat} {c : Char} {rest : List Char}
  (later : ∀ {after : List Char} {q : Nat} {frame : Frame}, after.length ≤ rest.length →
    At s q after → frame.Marked → frame.Meets s q after)
include later

theorem At.meets_plain {frame : Frame} (h : At s pos (c :: rest)) (plain : frame.Plain c rest)
    (marked : frame.Marked) : frame.Meets s pos (c :: rest) := by
  have follows := follows_step h plain marked
  rw [Frame.Meets, close_plain plain marked, reached_prepend]
  match step pos c frame [], follows with
  | [], ⟨move, width⟩ =>
    have ends := ScanEnds.done move
    rw [← width] at ends
    rwa [close_nil]
  | [next], ⟨move, marked'⟩ => exact .go move (h.passed marked' (later le_rfl h.next marked'))
  | [inner, _], ⟨rfl, marked', scan, start, move, entered⟩ =>
    exact Frame.Meets.both h.next move (fun out ends => entered out (h.passed marked' ends))
      (later le_rfl h.next marked') fun le at' => later le at' marked

theorem At.meets_guard {mark : Char} (h : At s pos ('\\' :: rest)) (quote : isQuote mark = true)
    (opened : Nat) : (Frame.quote opened mark).Meets s pos ('\\' :: rest) := by
  have move := (move_quote h quote opened).trans (if_pos rfl)
  have at' : At s (pos + 1) rest := h.next
  rcases rest with _ | ⟨c, rest⟩
  · have missing : (Frame.quote opened mark).scan.move s (pos + 2) = .missing := by
      rw [Scan.move, List.getElem?_eq_none ((List.getElem?_eq_none_iff.1 at'.nil).trans (by omega))]
    exact .go move (.missing missing)
  · have onward : pos + byteLength ['\\', c] = pos + 1 + c.utf8Size := by
      simp only [byteLength, Nat.add_zero, Nat.add_assoc, show '\\'.utf8Size = 1 from rfl]
    rw [Frame.Meets, close_guarded, reached_prepend, onward]
    have marked : (Frame.quote opened mark).Marked := quote
    exact .go move (at'.passed marked (later (Nat.le_succ _) at'.next marked))

theorem At.meets_hole (h : At s pos ('$' :: '{' :: rest)) (opened : Nat) :
    (Frame.quote opened '\x60').Meets s pos ('$' :: '{' :: rest) := by
  have move := (move_quote h rfl opened).trans
    ((if_neg (by decide)).trans (if_pos ⟨rfl, rfl, rfl⟩))
  have at' : At s (pos + 1) ('{' :: rest) := h.next
  rw [Frame.Meets, close_dollar, if_pos (beq_self_eq_true _), reached_prepend]
  exact Frame.Meets.both at'.next move (fun _ ends => .go (move_opening at' (pos + 1)) ends)
    (later le_rfl at'.next trivial) fun le at' => later le at' rfl

end

theorem At.meets {s : List UInt8} {pos : Nat} {cs : List Char} {frame : Frame} (h : At s pos cs)
    (marked : frame.Marked) : frame.Meets s pos cs := by
  -- by induction on the length of the text, since behind what opens in it a scan goes on
  induction hn : cs.length using Nat.strong_induction_on generalizing pos cs frame with
  | _ n ih =>
    subst hn
    rcases cs with _ | ⟨c, rest⟩
    · have missing : frame.scan.move s pos = .missing := by rw [Scan.move, h.nil]
      have ends := ScanEnds.missing missing
      rwa [frame.unclosed_scan] at ends
    have later {after : List Char} {q : Nat} {frame : Frame} (le : after.length ≤ rest.length)
        (at' : At s q after) (marked : frame.Marked) : frame.Meets s q after :=
      ih _ (Nat.lt_succ_of_le le) at' marked rfl
    by_cases plain : frame.Plain c rest
    · exact h.meets_plain later plain marked
    · cases frame with
      | brace | value | tag => exact absurd trivial plain
      | quote opened mark =>
        by_cases guard : c = '\\'
        · subst guard
          exact h.meets_guard later marked opened
        · obtain ⟨rfl, rfl, brace⟩ : mark = '\x60' ∧ c = '$' ∧ rest.head? = some '{' := by
            simpa only [Frame.Plain, ne_eq, guard, not_false_eq_true, true_and, Classical.not_imp,
              not_not] using plain
          obtain ⟨more, rfl⟩ := List.head?_eq_some_iff.1 brace
          exact h.meets_hole (fun le => later (le.trans (Nat.le_succ _))) opened

/-! ## Openings in a text -/

theorem At.of_append (before cs : List Char) : At (utf8 (before ++ cs)) (byteLength before) cs := by
  rw [At, utf8_append, ← length_utf8, List.drop_left]

theorem Frame.Fresh.marked {frame : Frame} (h : frame.Fresh) : frame.Marked := by
  cases frame with
  | brace | tag => trivial
  | quote | value => exact h

/-- From an opening in a text, the scan of the bytes ends where the text behind it is split; there, a
text of the grammar and the character that closes it are behind the opening. -/
structure Opener.Agrees (opening : Opener) (before : List Char) (opener : Char) (rest : List Char)
    (split : Except Unclosed (List Char × List Char)) (Inside : List Char → Prop) (closer : Char) :
    Prop where
  ends : opening.Ends (utf8 (before ++ opener :: rest)) (byteLength before)
    (reached (byteLength before + 1) split)
  matched : ∀ j, opening.Ends (utf8 (before ++ opener :: rest)) (byteLength before) (.ok j) ↔
    ∃ inner after, rest = inner ++ closer :: after ∧ Inside inner ∧
      j = byteLength before + 1 + byteLength (inner ++ [closer])

theorem Frame.Fresh.agrees {frame : Frame} (fresh : frame.Fresh) {before rest : List Char}
    {opener : Char} (width : opener.utf8Size = 1) {opening : Opener}
    (begins : ∀ out,
      ScanEnds (utf8 (before ++ opener :: rest)) frame.scan (byteLength before + 1) out →
        opening.Ends (utf8 (before ++ opener :: rest)) (byteLength before) out) :
    opening.Agrees before opener rest (close [frame] (byteLength before + 1) rest)
      (fun inner => frame.Holds inner) frame.closer := by
  have behind := (At.of_append before (opener :: rest)).next
  rw [width] at behind
  have ends := begins _ (behind.meets fresh.marked)
  refine ⟨ends, fun j => ⟨fun ends' => ?_, ?_⟩⟩
  · have here := ends'.unique ends
    rcases split : close [frame] (byteLength before + 1) rest with unclosed | ⟨inside, after⟩
    · rw [split] at here
      cases here
    · rw [split] at here
      obtain ⟨whole, inner, rfl, holds⟩ := (close_eq_iff fresh _ _ _ _).1 split
      rw [List.append_assoc, List.singleton_append] at whole
      exact ⟨inner, after, whole, holds, Except.ok.inj here⟩
  · rintro ⟨inner, after, whole, holds, rfl⟩
    have split := (close_eq_iff fresh (byteLength before + 1) rest (inner ++ [frame.closer]) after).2
      ⟨by rw [whole, List.append_assoc, List.singleton_append], inner, rfl, holds⟩
    rwa [split] at ends

/-- A scan for the end of a delimiter comes to one end, whatever the bytes are. It closes no brace that
is not open, an end that it comes to is behind the byte that closes the delimiter, and is told by the
bytes before it. On the bytes of a text it ends where the text is split. -/
theorem scans_settle :
    (∀ (s : List UInt8) (opened : Nat) (opening : Opener), s[opened]? = some opening.byte →
      opening.Settles s opened) ∧
    ∀ before rest : List Char,
      Opener.brace.Agrees before '{' rest (closeBrace (byteLength before) rest)
        (Enclosed none) '}' ∧
      Opener.tag.Agrees before '<' rest (closeTag (byteLength before) rest) Tagged '>' ∧
      ∀ mark : Char, isQuote mark = true →
        (Opener.quoted mark.toUInt8 true).Agrees before mark rest
          (closeQuote (byteLength before) mark rest) (Enclosed (some mark)) mark ∧
        (Opener.quoted mark.toUInt8 false).Agrees before mark rest
          (close [.value (byteLength before) mark] (byteLength before + 1) rest)
          (fun inner => mark ∉ inner) mark := by
  refine ⟨fun s opened opening here => Opener.settles here, fun before rest => ⟨?_, ?_, ?_⟩⟩
  · have fresh : (Frame.brace (byteLength before) 0).Fresh := rfl
    have here := At.of_append before ('{' :: rest)
    exact fresh.agrees rfl fun out ends => .go (move_opening here (byteLength before)) ends
  · have fresh : (Frame.tag (byteLength before)).Fresh := trivial
    exact fresh.agrees rfl fun _ ends => ends
  · intro mark quote
    have width := utf8Size_of_isQuote quote
    have string : (Frame.quote (byteLength before) mark).Fresh := quote
    have value : (Frame.value (byteLength before) mark).Fresh := quote
    exact ⟨string.agrees width fun _ ends => ends, value.agrees width fun _ ends => ends⟩

/-- A hole in a template string in braces, with more text behind the braces and with none. -/
theorem scans_settle_template :
    (utf8 "\x7b\x60$\x7ba\x7d\x60\x7d é".toList)[0]? = some Opener.brace.byte ∧
    isQuote '\x60' = true ∧
    Opener.brace.Ends (utf8 "\x7b\x60$\x7ba\x7d\x60\x7d é".toList) 0 (.ok 8) ∧
    Opener.brace.Ends (utf8 "\x7b\x60$\x7ba\x7d\x60\x7d".toList) 0 (.ok 8) ∧
    (Opener.quoted '\x60'.toUInt8 true).Ends (utf8 "\x7b\x60$\x7ba\x7d\x60\x7d".toList) 1 (.ok 7) := by
  have here : (utf8 "\x7b\x60$\x7ba\x7d\x60\x7d é".toList)[0]? = some Opener.brace.byte := by
    decide +kernel
  obtain ⟨settles, texts⟩ := scans_settle
  have ends : Opener.brace.Ends (utf8 "\x7b\x60$\x7ba\x7d\x60\x7d é".toList) 0 (.ok 8) :=
    ((texts [] "\x60$\x7ba\x7d\x60\x7d é".toList).1.matched 8).2
      ⟨"\x60$\x7ba\x7d\x60".toList, " é".toList, by decide +kernel, by decide +kernel,
        by decide +kernel⟩
  have stable := (settles _ 0 .brace here).stable 8 ends (utf8 "\x7b\x60$\x7ba\x7d\x60\x7d".toList)
    (by decide +kernel) (.ok 8)
  have string := ((texts ['{'] "$\x7ba\x7d\x60\x7d".toList).2.2 '\x60' rfl).1.ends
  have split : closeQuote 1 '\x60' "$\x7ba\x7d\x60\x7d".toList =
      .ok ("$\x7ba\x7d\x60".toList, ['}']) := by
    decide +kernel
  change Opener.Ends _ 1 _ (reached 2 (closeQuote 1 '\x60' _)) at string
  rw [split] at string
  exact ⟨here, rfl, ends, stable.2 rfl, string⟩

end LiveTemplate.Delimiter
