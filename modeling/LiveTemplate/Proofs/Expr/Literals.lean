/-
Literals as they are printed and as they are read. A printed string is read back as its text, and
passing over it, or over the text of a template string, stays inside of the quotes until they are
closed. A printed natural number is read back as the integer it is.
-/
import LiveTemplate.Expr.Parser
import LiveTemplate.Expr.Printer
import LiveTemplate.Proofs.Decimal.ReadBack

namespace LiveTemplate

open Text

/-! ## Escapes -/

namespace Grammar

/-- A digit has the value that it was printed for, and is neither a backslash nor a quote. -/
theorem digitChar_sixteen : ∀ n < 16, Decimal.digitValue (Nat.digitChar n) = some n ∧
    Nat.digitChar n ≠ '\\' ∧ Nat.digitChar n ≠ '"' := by
  decide

theorem codeChar_control {n : Nat} (h : n < 160) :
    codeChar? ['0', '0', Nat.digitChar (n / 16), Nat.digitChar (n % 16)] = some (Char.ofNat n) := by
  have zero : Decimal.digitValue '0' = some 0 := (digitChar_sixteen 0 (by decide)).1
  have small : n / 16 < 16 := by omega
  obtain ⟨high, -⟩ := digitChar_sixteen (n / 16) small
  obtain ⟨low, -⟩ := digitChar_sixteen (n % 16) (Nat.mod_lt n (by decide))
  have value : n / 16 * 16 + n % 16 = n := Nat.div_add_mod' n 16
  have code : n < 0xD800 := by omega
  have digits : Decimal.natOfDigits 16
      ['0', '0', Nat.digitChar (n / 16), Nat.digitChar (n % 16)] = some n := by
    simp [Decimal.natOfDigits, zero, high, low, small, Nat.mod_lt, value]
  simp [codeChar?, digits, code]

theorem escape_code {a b d e c : Char} (code : codeChar? [a, b, d, e] = some c) (pos : Nat)
    (rest : List Char) : escape pos ('u' :: a :: b :: d :: e :: rest) = .ok (c, rest) := by
  unfold escape
  dsimp only
  rw [if_neg (by decide), if_neg (by decide), if_neg (by decide), if_neg (by decide),
    if_neg (by decide), if_pos (by decide), code]

theorem unescape_escape {pos : Nat} {rest after : List Char} {c : Char}
    (h : escape pos rest = .ok (c, after)) (fuel : Nat) :
    ∃ pos', unescape (fuel + 1) pos ('\\' :: rest) = (unescape fuel pos' after).map (c :: ·) := by
  refine ⟨pos + 1 + byteLength (rest.take (rest.length - after.length)), ?_⟩
  rw [unescape, h]
  rfl

theorem unescape_plain {c : Char} (h : c ≠ '\\') (fuel pos : Nat) (rest : List Char) :
    unescape (fuel + 1) pos (c :: rest) = (unescape fuel (pos + c.utf8Size) rest).map (c :: ·) := by
  rw [unescape]
  · rfl
  · exact h

/-- A printed character is read back. -/
theorem unescape_char (c : Char) (fuel pos : Nat) (rest : List Char) :
    ∃ pos', unescape (fuel + 1) pos (stringLiteralChar c ++ rest) =
      (unescape fuel pos' rest).map (c :: ·) := by
  unfold stringLiteralChar
  split
  case isTrue h =>
    refine unescape_escape ?_ fuel
    rcases Bool.or_eq_true_iff.1 h with h | h <;> rw [eq_of_beq h] <;> rfl
  split
  case isTrue h => exact eq_of_beq h ▸ unescape_escape rfl fuel
  split
  case isTrue h => exact eq_of_beq h ▸ unescape_escape rfl fuel
  split
  case isTrue h => exact eq_of_beq h ▸ unescape_escape rfl fuel
  split
  case isTrue h =>
    have small : c.toNat < 160 := by
      simp only [isControl, Bool.or_eq_true, Bool.and_eq_true, decide_eq_true_eq] at h
      omega
    have code := codeChar_control small
    rw [Char.ofNat_toNat] at code
    exact unescape_escape (escape_code code _ rest) fuel
  case isFalse h _ _ _ _ =>
    refine ⟨_, unescape_plain ?_ fuel pos rest⟩
    rintro rfl
    exact h rfl

theorem stringLiteralChar_ne_nil (c : Char) : 1 ≤ (stringLiteralChar c).length := by
  unfold stringLiteralChar
  split_ifs <;> simp

theorem unescape_literal : ∀ (s : List Char) (fuel pos : Nat),
    (s.flatMap stringLiteralChar).length ≤ fuel →
      unescape fuel pos (s.flatMap stringLiteralChar) = .ok s
  | [], fuel, pos, _ => by cases fuel <;> rfl
  | c :: s, fuel, pos, h => by
    rw [List.flatMap_cons, List.length_append] at h
    have one := stringLiteralChar_ne_nil c
    obtain ⟨fuel, rfl⟩ : ∃ n, fuel = n + 1 := ⟨fuel - 1, by omega⟩
    obtain ⟨pos', hc⟩ := unescape_char c fuel pos (s.flatMap stringLiteralChar)
    rw [List.flatMap_cons, hc, unescape_literal s fuel pos' (by omega)]
    rfl

theorem stringText_literal (span : Span) (s : String) :
    stringText span (s.toList.flatMap stringLiteralChar) = .ok s := by
  rw [stringText, unescape_literal s.toList _ _ (Nat.le_refl _)]
  exact congrArg Except.ok String.ofList_toList

end Grammar

/-! ## Delimiters -/

namespace Delimiter

/-- Puts a text in front of what was passed over. -/
def prepend (text : List Char) (split : List Char × List Char) : List Char × List Char :=
  (text ++ split.1, split.2)

theorem map_prepend_prepend (a b : List Char) (x : Except Unclosed (List Char × List Char)) :
    (x.map (prepend b)).map (prepend a) = x.map (prepend (a ++ b)) := by
  cases x with
  | error e => rfl
  | ok split =>
    show Except.ok (a ++ (b ++ split.1), split.2) = Except.ok ((a ++ b) ++ split.1, split.2)
    rw [List.append_assoc]

theorem byteLength_append : ∀ a b : List Char, byteLength (a ++ b) = byteLength a + byteLength b
  | [], b => by simp [byteLength]
  | c :: a, b => by
    rw [List.cons_append, byteLength, byteLength, byteLength_append a b]
    omega

theorem close_nil (pos : Nat) (rest : List Char) : close [] pos rest = .ok ([], rest) := by
  cases rest <;> rfl

/-- A frame that is not that of a string sees every character. -/
theorem close_cons {frame : Frame} (hf : ∀ opened mark, frame ≠ .quote opened mark)
    (frames : List Frame) (pos : Nat) (c : Char) (rest : List Char) :
    close (frame :: frames) pos (c :: rest) =
      (close (step pos c frame frames) (pos + c.utf8Size) rest).map (prepend [c]) := by
  rw [close]
  · rfl
  all_goals simp [hf]

theorem close_brace (opened depth : Nat) (frames : List Frame) (pos : Nat) (c : Char)
    (rest : List Char) :
    close (.brace opened depth :: frames) pos (c :: rest) =
      (close (step pos c (.brace opened depth) frames) (pos + c.utf8Size) rest).map (prepend [c]) :=
  close_cons (by simp) frames pos c rest

theorem close_quote {c : Char} (hc : c ≠ '\\') {rest : List Char}
    (hr : c = '$' → rest.head? ≠ some '{') (opened : Nat) (mark : Char) (frames : List Frame)
    (pos : Nat) :
    close (.quote opened mark :: frames) pos (c :: rest) =
      (close (step pos c (.quote opened mark) frames) (pos + c.utf8Size) rest).map (prepend [c]) := by
  rw [close]
  · rfl
  all_goals grind

theorem close_guarded (opened : Nat) (mark : Char) (frames : List Frame) (pos : Nat) (c : Char)
    (rest : List Char) :
    close (.quote opened mark :: frames) pos ('\\' :: c :: rest) =
      (close (.quote opened mark :: frames) (pos + 1 + c.utf8Size) rest).map
        (prepend ['\\', c]) :=
  rfl

theorem close_dollar (opened : Nat) (mark : Char) (frames : List Frame) (pos : Nat)
    (rest : List Char) :
    close (.quote opened mark :: frames) pos ('$' :: '{' :: rest) =
      (close (if mark == '\x60' then .brace (pos + 1) 0 :: .quote opened mark :: frames
        else .quote opened mark :: frames) (pos + 2) rest).map (prepend ['$', '{']) :=
  rfl

theorem step_quote {c mark : Char} (h : c ≠ mark) (pos opened : Nat) (frames : List Frame) :
    step pos c (.quote opened mark) frames = .quote opened mark :: frames := by
  rw [step, if_neg (by simpa using h)]

/-- A character in a string that neither closes it nor guards the next one. Only in a template string
does it matter whether a dollar goes with a brace. -/
theorem close_char {c mark : Char} (hc : c ≠ '\\') (hm : c ≠ mark) (hb : '{' ≠ mark)
    {rest : List Char} (hr : mark = '\x60' → c = '$' → rest.head? ≠ some '{') (opened : Nat)
    (frames : List Frame) (pos : Nat) :
    close (.quote opened mark :: frames) pos (c :: rest) =
      (close (.quote opened mark :: frames) (pos + c.utf8Size) rest).map (prepend [c]) := by
  by_cases dollar : c = '$' → rest.head? ≠ some '{'
  · rw [close_quote hc dollar, step_quote hm]
  · obtain ⟨rfl, brace⟩ := Classical.not_imp.1 dollar
    obtain ⟨after, rfl⟩ := List.head?_eq_some_iff.1 (not_not.1 brace)
    have plain : (mark == '\x60') = false := by
      rw [beq_eq_false_iff_ne]
      exact fun template => hr template rfl rfl
    have second : close (.quote opened mark :: frames) (pos + '$'.utf8Size) ('{' :: after) =
        (close (.quote opened mark :: frames) (pos + 2) after).map (prepend ['{']) := by
      rw [close_quote (by decide) (fun he => absurd he (by decide)), step_quote hb]
      rfl
    rw [close_dollar, plain, if_neg Bool.false_ne_true, second, map_prepend_prepend]
    rfl

/-- A text is passed over inside of a frame, which is open as before after it. -/
def Passes (frame : Frame) (text : List Char) : Prop :=
  ∀ (frames : List Frame) (pos : Nat) (rest : List Char),
    close (frame :: frames) pos (text ++ rest) =
      (close (frame :: frames) (pos + byteLength text) rest).map (prepend text)

namespace Passes

variable {frame : Frame} {a b : List Char}

theorem nil (frame : Frame) : Passes frame [] := by
  intro frames pos rest
  show close _ _ _ = Except.map (fun split => ([] ++ split.1, split.2)) (close _ _ rest)
  simp only [List.nil_append, byteLength, Nat.add_zero, Prod.mk.eta]
  cases close (frame :: frames) pos rest <;> rfl

theorem append (ha : Passes frame a) (hb : Passes frame b) : Passes frame (a ++ b) := by
  intro frames pos rest
  rw [List.append_assoc, ha, hb, map_prepend_prepend, byteLength_append, Nat.add_assoc]

end Passes

theorem passes_stringChar (opened : Nat) (c : Char) :
    Passes (.quote opened '"') (stringLiteralChar c) := by
  intro frames pos rest
  unfold stringLiteralChar
  have guarded (d : Char) : close (.quote opened '"' :: frames) pos (['\\', d] ++ rest) =
      (close (.quote opened '"' :: frames) (pos + byteLength ['\\', d]) rest).map
        (prepend ['\\', d]) := by
    show close _ pos ('\\' :: d :: rest) = _
    rw [close_guarded]
    simp only [byteLength, Nat.add_zero, Nat.add_assoc]
    rfl
  split
  case isTrue => exact guarded c
  split
  case isTrue => exact guarded 'n'
  split
  case isTrue => exact guarded 'r'
  split
  case isTrue => exact guarded 't'
  split
  case isTrue h =>
    have small : c.toNat < 160 := by
      simp only [isControl, Bool.or_eq_true, Bool.and_eq_true, decide_eq_true_eq] at h
      omega
    have digits : ∀ (ds : List Char), (∀ d ∈ ds, d ≠ '\\' ∧ d ≠ '"') →
        Passes (.quote opened '"') ds := by
      intro ds hds
      induction ds with
      | nil => exact .nil _
      | cons d ds ih =>
        refine Passes.append (a := [d]) ?_ (ih fun d hd => hds d (List.mem_cons_of_mem _ hd))
        intro frames pos rest
        obtain ⟨h₁, h₂⟩ := hds d List.mem_cons_self
        exact close_char h₁ h₂ (by decide) (fun he => absurd he (by decide)) opened frames pos
    have plain : ∀ d ∈ ['0', '0', Nat.digitChar (c.toNat / 16), Nat.digitChar (c.toNat % 16)],
        d ≠ '\\' ∧ d ≠ '"' := by
      simp only [List.forall_mem_cons, List.not_mem_nil, false_imp_iff, implies_true, and_true]
      exact ⟨by decide, by decide, (Grammar.digitChar_sixteen _ (by omega)).2,
        (Grammar.digitChar_sixteen _ (by omega)).2⟩
    have code := digits _ plain frames (pos + byteLength ['\\', 'u']) rest
    show close _ pos ('\\' :: 'u' :: (['0', '0', _, _] ++ rest)) = _
    rw [close_guarded, show pos + 1 + 'u'.utf8Size = pos + byteLength ['\\', 'u'] from rfl, code,
      map_prepend_prepend, Nat.add_assoc, ← byteLength_append]
    rfl
  case isFalse h _ _ _ _ =>
    simp only [Bool.or_eq_true, beq_iff_eq, not_or] at h
    exact close_char h.2 h.1 (by decide) (fun he => absurd he (by decide)) opened frames pos

theorem passes_string (opened : Nat) : ∀ s : List Char,
    Passes (.quote opened '"') (s.flatMap stringLiteralChar)
  | [] => .nil _
  | c :: s => by
    rw [List.flatMap_cons]
    exact (passes_stringChar opened c).append (passes_string opened s)

/-- A text that a closing quote after it is found behind. -/
def Quotable (mark : Char) (text : List Char) : Prop :=
  ∀ (opened : Nat) (frames : List Frame) (pos : Nat) (rest : List Char),
    close (.quote opened mark :: frames) pos (text ++ mark :: rest) =
      (close frames (pos + byteLength text + mark.utf8Size) rest).map (prepend (text ++ [mark]))

/-- What is passed over inside of quotes up to the closing one. -/
theorem quotable_of_close {mark : Char} (hm : mark ≠ '\\' ∧ mark ≠ '$') {text : List Char}
    (h : ∀ (opened : Nat) (frames : List Frame) (pos : Nat) (rest : List Char),
      close (.quote opened mark :: frames) pos (text ++ mark :: rest) =
        (close (.quote opened mark :: frames) (pos + byteLength text) (mark :: rest)).map
          (prepend text)) : Quotable mark text := by
  intro opened frames pos rest
  have closing : step (pos + byteLength text) mark (.quote opened mark) frames = frames := by
    simp [step]
  rw [h, close_quote hm.1 (fun he => absurd he hm.2), closing, map_prepend_prepend]

theorem quotable_string (s : List Char) : Quotable '"' (s.flatMap stringLiteralChar) :=
  quotable_of_close (by decide) fun opened frames pos rest =>
    passes_string opened s frames pos ('"' :: rest)

theorem Quotable.closeQuote {mark : Char} {text : List Char} (h : Quotable mark text)
    (opened : Nat) (rest : List Char) :
    closeQuote opened mark (text ++ mark :: rest) = .ok (text ++ [mark], rest) := by
  rw [Delimiter.closeQuote, h, close_nil]
  simp [prepend, Except.map]

/-! ## Braces -/

/-- A text that is passed over inside of braces. -/
def Balanced (text : List Char) : Prop :=
  ∀ opened depth : Nat, Passes (.brace opened depth) text

namespace Balanced

theorem nil : Balanced [] := fun _ _ => .nil _

theorem append {a b : List Char} (ha : Balanced a) (hb : Balanced b) : Balanced (a ++ b) :=
  fun opened depth => (ha opened depth).append (hb opened depth)

/-- Characters that are neither braces nor quotes. -/
theorem plain : ∀ {text : List Char}, (∀ c ∈ text, c ≠ '{' ∧ c ≠ '}' ∧ isQuote c = false) →
    Balanced text
  | [], _ => nil
  | c :: text, h => by
    refine append (a := [c]) (fun opened depth frames pos rest => ?_)
      (plain fun d hd => h d (List.mem_cons_of_mem _ hd))
    obtain ⟨ho, hc, hq⟩ := h c List.mem_cons_self
    have stays : step pos c (.brace opened depth) frames = .brace opened depth :: frames := by
      simp [step, ho, hc, hq]
    show close _ pos (c :: rest) = _
    rw [close_brace, stays]
    rfl

theorem braces {text : List Char} (h : Balanced text) : Balanced ('{' :: (text ++ ['}'])) := by
  intro opened depth frames pos rest
  have deeper : step pos '{' (.brace opened depth) frames = .brace opened (depth + 1) :: frames := rfl
  have back (pos : Nat) : step pos '}' (.brace opened (depth + 1)) frames =
      .brace opened depth :: frames := by simp [step]
  show close _ pos ('{' :: (text ++ ['}'] ++ rest)) = _
  rw [close_brace, deeper, List.append_assoc, h, List.singleton_append, close_brace, back]
  simp only [map_prepend_prepend]
  congr 2
  simp only [byteLength, byteLength_append]
  omega

theorem quoted {mark : Char} (hq : isQuote mark = true) {text : List Char}
    (h : Quotable mark text) : Balanced (mark :: (text ++ [mark])) := by
  intro opened depth frames pos rest
  have plain : mark ≠ '{' ∧ mark ≠ '}' := by
    refine ⟨?_, ?_⟩ <;> rintro rfl <;> exact absurd hq (by decide)
  have inside : step pos mark (.brace opened depth) frames =
      .quote pos mark :: .brace opened depth :: frames := by
    simp [step, plain.1, plain.2, hq]
  show close _ pos (mark :: (text ++ [mark] ++ rest)) = _
  rw [close_brace, inside, List.append_assoc, List.singleton_append, h]
  simp only [map_prepend_prepend]
  congr 2
  simp only [byteLength, byteLength_append]
  omega

end Balanced

theorem balanced_stringLiteral (s : String) : Balanced (stringLiteral s).toList := by
  rw [stringLiteral, String.toList_ofList]
  exact .quoted rfl (quotable_string s.toList)

theorem Balanced.closeBrace {text : List Char} (h : Balanced text) (opened : Nat)
    (rest : List Char) :
    closeBrace opened (text ++ '}' :: rest) = .ok (text ++ ['}'], rest) := by
  have closing (pos : Nat) : step pos '}' (.brace opened 0) [] = [] := rfl
  rw [Delimiter.closeBrace, h, close_brace, closing, map_prepend_prepend, close_nil]
  simp [prepend, Except.map]

/-! ## Template strings -/

/-- The text after a dollar begins with a brace only where the dollar is guarded. -/
theorem head_templateText {s rest : List Char} (h : (templateText s ++ rest).head? = some '{') :
    s.head? = some '{' ∨ s = [] ∧ rest.head? = some '{' := by
  fun_cases templateText s with
  | case1 => exact .inr ⟨rfl, h⟩
  | case2 => simp [templateText] at h
  | case3 c s hs hc => simp [templateText, hc] at h
  | case4 c s hs hc => exact .inl (by simpa [templateText, hc] using h)

/-- Passing over the text of a template string, unless a dollar at its end goes with a brace. -/
theorem close_templateText (opened : Nat) (frames : List Frame) (s : List Char) (pos : Nat)
    (rest : List Char) (hr : rest.head? ≠ some '{') :
    close (.quote opened '\x60' :: frames) pos (templateText s ++ rest) =
      (close (.quote opened '\x60' :: frames) (pos + byteLength (templateText s)) rest).map
        (prepend (templateText s)) := by
  fun_induction templateText s generalizing pos with
  | case1 => exact Passes.nil _ frames pos rest
  | case2 s ih =>
    show close _ pos ('\\' :: '$' :: '{' :: (templateText s ++ rest)) = _
    rw [close_guarded, close_quote (by decide) (fun he => absurd he (by decide)),
      step_quote (by decide), ih]
    simp only [map_prepend_prepend]
    congr 2
    simp only [byteLength, show '\\'.utf8Size = 1 from rfl]
    omega
  | case3 c s hs hc ih =>
    show close _ pos ('\\' :: c :: (templateText s ++ rest)) = _
    rw [close_guarded, ih, map_prepend_prepend]
    congr 2
    simp only [byteLength, show '\\'.utf8Size = 1 from rfl]
    omega
  | case4 c s hs hc ih =>
    simp only [Bool.or_eq_true, beq_iff_eq, not_or] at hc
    have unguarded : c = '$' → (templateText s ++ rest).head? ≠ some '{' := by
      rintro rfl hb
      rcases head_templateText hb with hb | ⟨-, hb⟩
      · rcases s with _ | ⟨b, s⟩
        · simp at hb
        · exact hs s rfl (by simpa using hb)
      · exact hr hb
    rw [List.cons_append, close_quote hc.1 unguarded, step_quote hc.2, ih, map_prepend_prepend]
    congr 2
    simp only [byteLength]
    omega

/-- Passing over a hole of a template string. -/
theorem close_hole {text : List Char} (h : Balanced text) (opened : Nat) (frames : List Frame)
    (pos : Nat) (rest : List Char) :
    close (.quote opened '\x60' :: frames) pos ('$' :: '{' :: (text ++ '}' :: rest)) =
      (close (.quote opened '\x60' :: frames) (pos + byteLength ('$' :: '{' :: (text ++ ['}']))) rest).map
        (prepend ('$' :: '{' :: (text ++ ['}']))) := by
  have inside : close (.quote opened '\x60' :: frames) pos ('$' :: '{' :: (text ++ '}' :: rest)) =
      (close (.brace (pos + 1) 0 :: .quote opened '\x60' :: frames) (pos + 2)
        (text ++ '}' :: rest)).map (prepend ['$', '{']) :=
    close_dollar opened '\x60' frames pos (text ++ '}' :: rest)
  have closing (p : Nat) : step p '}' (.brace (pos + 1) 0) (.quote opened '\x60' :: frames) =
      .quote opened '\x60' :: frames := rfl
  rw [inside, h, close_brace, closing]
  simp only [map_prepend_prepend]
  congr 2
  simp only [byteLength, byteLength_append, show '$'.utf8Size = 1 from rfl,
    show '{'.utf8Size = 1 from rfl]
  omega

end Delimiter

/-! ## Numerals -/

namespace Grammar

/-- A numeral of digits and points announces no base. -/
theorem radix?_numeral {text : List Char} (h : IsNumeral text) : radix? text = none := by
  obtain ⟨c, rest, rfl, hc, hr⟩ := h
  unfold radix?
  split
  case h_1 _ d rest heq =>
    simp only [List.cons.injEq] at heq
    obtain ⟨-, rfl⟩ := heq
    have other (e : Char) (he : isAsciiDigit e = false) (hp : e ≠ '.') : d ≠ e := by
      rcases hr d (by simp) with hd | rfl
      · exact ne_of_test hd he
      · exact hp.symm
    simp [other 'x', other 'X', other 'o', other 'O', other 'b', other 'B', isAsciiDigit]
  case h_2 => rfl

theorem filter_numeral {text : List Char} (h : IsNumeral text) :
    text.filter (· != '_') = text := by
  obtain ⟨c, rest, rfl, hc, hr⟩ := h
  refine List.filter_eq_self.2 fun d hd => bne_iff_ne.2 ?_
  rcases List.mem_cons.1 hd with rfl | hd
  · exact ne_of_test hc rfl
  · rcases hr d hd with hd | rfl
    · exact ne_of_test hd rfl
    · decide

/-- A printed integer is read back. -/
theorem numeral?_int {i : Int64} (h : 0 ≤ i) :
    numeral? (Decimal.intText i.toInt).toList = some (.int i) := by
  have nonneg : 0 ≤ i.toInt := by simpa using Int64.le_iff_toInt_le.1 h
  have below : i.toInt.toNat < Decimal.pow2 63 := by
    have := i.toInt_lt
    show i.toInt.toNat < 2 ^ 63
    omega
  have numeral := isNumeral_natText i.toInt.toNat
  have digits : ∀ c ∈ (Decimal.natText i.toInt.toNat).toList, isAsciiDigit c = true := by
    rw [Decimal.natText, String.toList_ofList]
    exact fun c hc => Decimal.toDigits_digit hc
  have value : Decimal.valueOf (Decimal.natText i.toInt.toNat).toList = i.toInt.toNat := by
    rw [Decimal.natText, String.toList_ofList, Decimal.valueOf_toDigits]
  rw [Decimal.intText_of_nonneg nonneg, numeral?]
  simp only [filter_numeral numeral, radix?_numeral numeral, List.all_eq_true.2 digits, value, below,
    decide_true, Bool.and_self, if_true, Option.some.injEq, Value.int.injEq]
  rw [← Int64.ofInt_eq_ofNat, Int.toNat_of_nonneg nonneg, Int64.ofInt_toInt]

/-- A printed number with places is read back. -/
theorem numeral?_float {x : Float} {m : Decimal.Magnitude} (hx : Decimal.reading x = .finite m)
    (hn : Decimal.isNegative x = false) (hw : Decimal.isWhole x = false) :
    numeral? (Value.floatText x).toList = some (.float x) := by
  obtain ⟨double, point⟩ := Decimal.parseDouble_floatText hx hn hw
  have numeral := isNumeral_floatText hx hn
  have notInt : (Value.floatText x).toList.all isAsciiDigit = false :=
    List.all_eq_false.2 ⟨'.', point, by decide⟩
  rw [numeral?]
  simp only [filter_numeral numeral, radix?_numeral numeral, notInt, Bool.false_and,
    Bool.false_eq_true, if_false, double, Option.map_some]

end Grammar

end LiveTemplate
