/-
Expressions as they can be written. The grammar gives expressions whose names are names, whose
numbers have no sign and whose template strings have no idle texts; resolved forms do not occur.
The printed form of such an expression is a text in which all delimiters are balanced.
-/
import LiveTemplate.Proofs.Expr.Literals
import LiveTemplate.Proofs.Expr.Reads

namespace LiveTemplate

open Text Grammar Delimiter

/-! ## Written expressions -/

/-- The words that stand for values, for the component or for an operator. -/
def reservedWords : List String :=
  ["true", "false", "null", "undefined", "NaN", "Infinity", "this", "typeof"]

/-- Whether a text can stand as a name. -/
def isName (s : String) : Bool :=
  match s.toList with
  | [] => false
  | c :: rest => isNameStart c && rest.all isNamePart

/-- A value that a numeral, a string or a word stands for. -/
def Value.Written : Value → Prop
  | .null | .bool _ | .text _ => True
  | .int i => 0 ≤ i
  | .float x => x = Value.nan ∨ x = 1.0 / 0.0 ∨
      (∃ m, Decimal.reading x = .finite m) ∧ Decimal.isNegative x = false
  | .list .. | .map .. => False

/-- Whether the parts of a template string begin with a text. -/
def opensWithText : List TemplatePart → Bool
  | .text _ :: _ => true
  | _ => false

mutual

/-- An expression of a form that the grammar gives. Only an entry of an object literal that is
written as its key alone may be a reserved word. -/
def Expr.Written : Expr → Prop
  | .literal _ v => v.Written
  | .template _ parts => writtenParts parts
  | .name _ n => isName n = true ∧ n ∉ reservedWords
  | .self _ => True
  | .root .. | .method .. | .function .. => False
  | .member _ o p _ => isName p = true ∧ o.Written
  | .index _ o i _ => o.Written ∧ i.Written
  | .call _ callee args => callee.Written ∧ writtenAll args
  | .unary _ _ e => e.Written
  | .binary _ _ l r => l.Written ∧ r.Written
  | .conditional _ c t e => c.Written ∧ t.Written ∧ e.Written
  | .array _ items => writtenAll items
  | .object _ entries => writtenEntries entries
  | .arrow _ params body => (∀ p ∈ params, isName p = true) ∧ body.Written

def writtenAll : List Expr → Prop
  | [] => True
  | e :: rest => e.Written ∧ writtenAll rest

def writtenEntries : List (String × Expr) → Prop
  | [] => True
  | (k, e) :: rest =>
    ((∃ s, e = .name s k ∧ isName k = true ∧ k ∈ reservedWords) ∨ e.Written) ∧ writtenEntries rest

/-- No text is empty or follows another one. -/
def writtenParts : List TemplatePart → Prop
  | [] => True
  | .text t :: rest => t ≠ "" ∧ opensWithText rest = false ∧ writtenParts rest
  | .hole e :: rest => e.Written ∧ writtenParts rest

end

/-! ## Forms that are read as they are printed -/

/-- Whether a value is printed with digits. -/
def Value.isNumeral : Value → Bool
  | .int _ => true
  | .float x => match Decimal.reading x with
    | .finite _ => true
    | _ => false
  | _ => false

/-- Whether an expression is a number printed with digits. -/
def Expr.isNumeral : Expr → Bool
  | .literal _ v => v.isNumeral
  | _ => false

/-- Whether the printed form of an expression begins with an object literal. -/
def Expr.opensWithObject : Expr → Bool
  | .object .. => true
  | .member _ o _ _ | .index _ o _ _ | .call _ o _ => 8 ≤ o.precedence && o.opensWithObject
  | .binary _ op l _ => op.precedence ≤ l.precedence && l.opensWithObject
  | .conditional _ c _ _ => 1 ≤ c.precedence && c.opensWithObject
  | _ => false

/-- Whether an expression is a given name. -/
def Expr.isNamed (k : String) : Expr → Bool
  | .name _ n => n == k
  | _ => false

/-- The outermost form of an expression is not one of those that are read differently: a point
after digits belongs to the number, a whole float is printed like an integer, a reserved word is no
name, and a brace after an arrow opens no object. -/
def Expr.SafeForm : Expr → Prop
  | .literal _ (.float x) => Decimal.isWhole x = false
  | .member _ o _ false => o.isNumeral = false
  | .object _ entries => ∀ s k, (k, Expr.name s k) ∈ entries → k ∉ reservedWords
  | .arrow _ _ body => body.isObject = true ∨ body.opensWithObject = false
  | _ => True

theorem Expr.isNamed_iff {k : String} {e : Expr} : e.isNamed k = true ↔ ∃ s, e = .name s k := by
  cases e <;> simp [isNamed]

instance (e : Expr) : Decidable e.SafeForm :=
  match e with
  | .literal _ (.float x) => inferInstanceAs (Decidable (Decimal.isWhole x = false))
  | .literal _ .null | .literal _ (.bool _) | .literal _ (.int _) | .literal _ (.text _)
  | .literal _ (.list ..) | .literal _ (.map ..) => .isTrue trivial
  | .member _ o _ false => inferInstanceAs (Decidable (o.isNumeral = false))
  | .member _ _ _ true => .isTrue trivial
  | .object _ entries =>
    decidable_of_iff (∀ entry ∈ entries, entry.2.isNamed entry.1 = true → entry.1 ∉ reservedWords) (by
      constructor
      · intro h s k hk
        exact h _ hk (Expr.isNamed_iff.2 ⟨s, rfl⟩)
      · rintro h ⟨k, e⟩ he named
        obtain ⟨s, rfl⟩ := (Expr.isNamed_iff (k := k)).1 named
        exact h s k he)
  | .arrow _ _ body =>
    inferInstanceAs (Decidable (body.isObject = true ∨ body.opensWithObject = false))
  | .template .. | .name .. | .self .. | .root .. | .index .. | .call .. | .method .. | .function ..
  | .unary .. | .binary .. | .conditional .. | .array .. => .isTrue trivial

/-- No part of an expression is read differently than it was printed. -/
def Expr.Reprintable (e : Expr) : Prop := ∀ x ∈ e.subterms, x.SafeForm

instance (e : Expr) : Decidable e.Reprintable :=
  inferInstanceAs (Decidable (∀ x ∈ e.subterms, x.SafeForm))

/-! ## Characters -/

theorem isNamePart_of_start {c : Char} (h : isNameStart c = true) : isNamePart c = true := by
  simp only [isNameStart, isNamePart, isIdentifierStart, isIdentifierContinue, Bool.or_eq_true,
    beq_iff_eq] at h ⊢
  rcases h with (rfl | rfl) | h
  · exact .inr rfl
  · exact .inl rfl
  · right
    split at h <;> simp [*]

theorem isName_chars {s : String} (h : isName s = true) :
    ∃ c rest, s.toList = c :: rest ∧ isNameStart c = true ∧ ∀ d ∈ rest, isNamePart d = true := by
  unfold isName at h
  split at h
  · cases h
  · rename_i c rest heq
    obtain ⟨hc, hr⟩ := Bool.and_eq_true_iff.1 h
    exact ⟨c, rest, heq, hc, List.all_eq_true.1 hr⟩

theorem isName_parts {s : String} (h : isName s = true) : ∀ c ∈ s.toList, isNamePart c = true := by
  obtain ⟨c, rest, hs, hc, hr⟩ := isName_chars h
  rw [hs]
  exact List.forall_mem_cons.2 ⟨isNamePart_of_start hc, hr⟩

theorem isNameStart_of_letter {c : Char} (h : isAsciiLetter c = true) : isNameStart c = true := by
  have small : c.toNat < 0x80 := by
    simp only [isAsciiLetter, Bool.or_eq_true, Bool.and_eq_true, decide_eq_true_eq] at h
    rcases h with h | h
    · exact Nat.lt_of_le_of_lt (UInt32.le_iff_toNat_le.1 h.2) (by decide)
    · exact Nat.lt_of_le_of_lt (UInt32.le_iff_toNat_le.1 h.2) (by decide)
  simp [isNameStart, isIdentifierStart, small, h]

theorem not_digit_of_nameStart {c : Char} (h : isNameStart c = true) : isAsciiDigit c = false := by
  by_contra hd
  have digit : isAsciiDigit c = true := by simpa using hd
  simp only [isAsciiDigit, Bool.and_eq_true, decide_eq_true_eq, Char.le_def,
    UInt32.le_iff_toNat_le] at digit
  have low : 48 ≤ c.toNat := digit.1
  have high : c.toNat ≤ 57 := digit.2
  simp only [isNameStart, Bool.or_eq_true, beq_iff_eq] at h
  rcases h with (rfl | rfl) | h
  · revert hd; decide
  · revert hd; decide
  · rw [isIdentifierStart, if_pos (by omega)] at h
    simp only [isAsciiLetter, Bool.or_eq_true, Bool.and_eq_true, decide_eq_true_eq, Char.le_def,
      UInt32.le_iff_toNat_le] at h
    rcases h with h | h
    · have : 97 ≤ c.toNat := h.1
      omega
    · have : 65 ≤ c.toNat := h.1
      omega

theorem isNamePart_of_digit {c : Char} (h : isAsciiDigit c = true) : isNamePart c = true := by
  have small : c.toNat < 0x80 := by
    simp only [isAsciiDigit, Bool.and_eq_true, decide_eq_true_eq] at h
    exact Nat.lt_of_le_of_lt (UInt32.le_iff_toNat_le.1 h.2) (by decide)
  simp [isNamePart, isIdentifierContinue, small, h]

/-- A key that needs no quotes is a name. -/
theorem isName_of_isPlainKey {k : String} (h : isPlainKey k = true) : isName k = true := by
  unfold isPlainKey at h
  unfold isName
  generalize k.toList = chars at h ⊢
  cases chars with
  | nil => cases h
  | cons c rest =>
    simp only [Bool.and_eq_true, Bool.or_eq_true, beq_iff_eq, List.all_eq_true] at h ⊢
    refine ⟨?_, fun d hd => ?_⟩
    · rcases h.1 with (hc | rfl) | rfl
      · exact isNameStart_of_letter hc
      · rfl
      · rfl
    · rcases h.2 d hd with ((hd | hd) | rfl) | rfl
      · exact isNamePart_of_start (isNameStart_of_letter hd)
      · exact isNamePart_of_digit hd
      · rfl
      · rfl

/-- Whether a character is neither a brace nor a quote. -/
def isPlain (c : Char) : Bool := c != '{' && c != '}' && !isQuote c

theorem isPlain_of_namePart {c : Char} (h : isNamePart c = true) : isPlain c = true := by
  have other (d : Char) (hd : isNamePart d = false) : c ≠ d := ne_of_test h hd
  simp [isPlain, isQuote, other '{' rfl, other '}' rfl, other '"' rfl, other '\'' rfl,
    other '\x60' rfl]

theorem balanced_of_plain {text : List Char} (h : text.all isPlain = true) : Balanced text := by
  refine .plain fun c hc => ?_
  have := List.all_eq_true.1 h c hc
  simpa [isPlain, and_assoc] using this

theorem balanced_name {s : String} (h : isName s = true) : Balanced s.toList :=
  balanced_of_plain (List.all_eq_true.2 fun c hc => isPlain_of_namePart (isName_parts h c hc))

theorem isPlain_of_digit {c : Char} (h : isAsciiDigit c = true) : isPlain c = true :=
  isPlain_of_namePart (isNamePart_of_digit h)

/-! ## Printed forms -/

theorem IsNumeral.balanced {text : List Char} (h : IsNumeral text) : Balanced text := by
  obtain ⟨c, rest, rfl, hc, hr⟩ := h
  refine balanced_of_plain (List.all_eq_true.2 (List.forall_mem_cons.2 ⟨isPlain_of_digit hc, ?_⟩))
  intro d hd
  rcases hr d hd with h | rfl
  · exact isPlain_of_digit h
  · rfl

theorem Value.Written.balanced : ∀ {v : Value}, v.Written → Balanced v.literalText.toList
  | .null, _ => balanced_of_plain rfl
  | .bool b, _ => by cases b <;> exact balanced_of_plain rfl
  | .text s, _ => balanced_stringLiteral s
  | .int i, h => by
    have nonneg : 0 ≤ i.toInt := by simpa using Int64.le_iff_toInt_le.1 h
    rw [literalText, Decimal.intText_of_nonneg nonneg]
    exact (isNumeral_natText _).balanced
  | .float x, h => by
    rw [literalText]
    rcases h with rfl | rfl | ⟨⟨m, hm⟩, hn⟩
    · exact balanced_of_plain (by decide +kernel)
    · exact balanced_of_plain (by decide +kernel)
    · exact (isNumeral_floatText hm hn).balanced

theorem balanced_intercalate : ∀ {texts : List String}, (∀ s ∈ texts, Balanced s.toList) →
    Balanced (", ".intercalate texts).toList
  | [], _ => .nil
  | [s], h => by simpa using h s (by simp)
  | s :: s' :: rest, h => by
    rw [String.intercalate_cons_cons, String.toList_append, String.toList_append]
    exact ((h s (by simp)).append (balanced_of_plain rfl)).append
      (balanced_intercalate fun t ht => h t (List.mem_cons_of_mem _ ht))

theorem balanced_parenthesize {text : String} (needed actual : Nat) (h : Balanced text.toList) :
    Balanced (parenthesize needed actual text).toList := by
  unfold parenthesize
  split
  · simp only [String.toList_append]
    exact ((balanced_of_plain rfl).append h).append (balanced_of_plain rfl)
  · exact h

theorem balanced_argumentList {texts : List String} (h : ∀ s ∈ texts, Balanced s.toList) :
    Balanced (argumentList texts).toList := by
  simp only [argumentList, String.toList_append]
  exact ((balanced_of_plain rfl).append (balanced_intercalate h)).append (balanced_of_plain rfl)

theorem balanced_braced {texts : List String} (h : ∀ s ∈ texts, Balanced s.toList) :
    Balanced (braced texts).toList := by
  unfold braced
  split
  · exact Balanced.nil.braces
  · have inside : Balanced ([' '] ++ (", ".intercalate texts).toList ++ [' ']) :=
      ((balanced_of_plain rfl).append (balanced_intercalate h)).append (balanced_of_plain rfl)
    simpa using inside.braces

theorem balanced_key (k : String) : Balanced (if isPlainKey k then k else stringLiteral k).toList := by
  split
  case isTrue h => exact balanced_name (isName_of_isPlainKey h)
  case isFalse => exact balanced_stringLiteral k

/-- An entry that is no reserved word alone has a value that can be written. -/
theorem writtenEntries_head {k : String} {e : Expr} {entries : List (String × Expr)}
    (h : writtenEntries ((k, e) :: entries))
    (hk : ∀ s k', (k', Expr.name s k') ∈ (k, e) :: entries → k' ∉ reservedWords) : e.Written := by
  rw [writtenEntries] at h
  rcases h.1 with ⟨s, rfl, -, reserved⟩ | he
  · exact absurd reserved (hk s k List.mem_cons_self)
  · exact he

/-- What follows a text in a template string is no brace. -/
theorem head_printParts {parts : List TemplatePart} (h : opensWithText parts = false)
    (rest : List Char) (hr : rest.head? ≠ some '{') :
    ((printParts parts).toList ++ rest).head? ≠ some '{' := by
  rcases parts with _ | ⟨_ | _, parts⟩
  · simpa [printParts] using hr
  · simp [opensWithText] at h
  · simp [printParts]

mutual

theorem Expr.Written.balanced : ∀ {e : Expr}, e.Written → Balanced e.print.toList
  | .literal _ v, h => by
    rw [Expr.Written] at h
    rw [Expr.print]
    exact h.balanced
  | .template _ parts, h => by
    rw [Expr.Written] at h
    have body := Balanced.quoted rfl (quotable_of_close (by decide) (close_printParts h))
    simpa [Expr.print] using body
  | .name _ n, h => by
    rw [Expr.Written] at h
    rw [Expr.print]
    exact balanced_name h.1
  | .self _, _ => by
    rw [Expr.print]
    exact balanced_of_plain rfl
  | .member _ o p optional, h => by
    rw [Expr.Written] at h
    simp only [Expr.print, String.toList_append]
    refine ((balanced_parenthesize _ _ h.2.balanced).append ?_).append (balanced_name h.1)
    cases optional <;> exact balanced_of_plain rfl
  | .index _ o i optional, h => by
    rw [Expr.Written] at h
    simp only [Expr.print, String.toList_append]
    refine ((((balanced_parenthesize _ _ h.1.balanced).append ?_).append
      (balanced_of_plain rfl)).append h.2.balanced).append (balanced_of_plain rfl)
    cases optional <;> exact balanced_of_plain rfl
  | .call _ callee args, h => by
    rw [Expr.Written] at h
    simp only [Expr.print, String.toList_append]
    exact (balanced_parenthesize _ _ h.1.balanced).append
      (balanced_argumentList (balanced_printAll h.2))
  | .unary _ op e, h => by
    rw [Expr.Written] at h
    simp only [Expr.print, String.toList_append]
    refine Balanced.append ?_ (balanced_parenthesize _ _ h.balanced)
    cases op <;> exact balanced_of_plain rfl
  | .binary _ op l r, h => by
    rw [Expr.Written] at h
    simp only [Expr.print, String.toList_append]
    refine ((((balanced_parenthesize _ _ h.1.balanced).append (balanced_of_plain rfl)).append
      ?_).append (balanced_of_plain rfl)).append (balanced_parenthesize _ _ h.2.balanced)
    cases op <;> exact balanced_of_plain rfl
  | .conditional _ c t e, h => by
    rw [Expr.Written] at h
    simp only [Expr.print, String.toList_append]
    exact ((((balanced_parenthesize _ _ h.1.balanced).append (balanced_of_plain rfl)).append
      h.2.1.balanced).append (balanced_of_plain rfl)).append h.2.2.balanced
  | .array _ items, h => by
    rw [Expr.Written] at h
    simp only [Expr.print, String.toList_append]
    exact ((balanced_of_plain rfl).append (balanced_intercalate (balanced_printAll h))).append
      (balanced_of_plain rfl)
  | .object _ entries, h => by
    rw [Expr.Written] at h
    rw [Expr.print]
    exact balanced_braced (balanced_printEntries h)
  | .arrow _ params body, h => by
    rw [Expr.Written] at h
    simp only [Expr.print, String.toList_append]
    refine (((balanced_of_plain rfl).append
      (balanced_intercalate fun p hp => balanced_name (h.1 p hp))).append
        (balanced_of_plain rfl)).append ?_
    split
    · simp only [String.toList_append]
      exact ((balanced_of_plain rfl).append h.2.balanced).append (balanced_of_plain rfl)
    · exact h.2.balanced
  | .root .., h | .method .., h | .function .., h => by
    rw [Expr.Written] at h
    exact h.elim

theorem balanced_printAll : ∀ {es : List Expr}, writtenAll es →
    ∀ s ∈ printAll es, Balanced s.toList
  | [], _ => by simp [printAll]
  | e :: es, h => by
    rw [writtenAll] at h
    rw [printAll]
    exact List.forall_mem_cons.2 ⟨h.1.balanced, balanced_printAll h.2⟩

theorem balanced_printEntries : ∀ {entries : List (String × Expr)}, writtenEntries entries →
    ∀ s ∈ printEntries entries, Balanced s.toList
  | [], _ => by simp [printEntries]
  | (k, e) :: entries, h => by
    rw [writtenEntries] at h
    rw [printEntries]
    refine List.forall_mem_cons.2 ⟨?_, balanced_printEntries h.2⟩
    have value : Balanced e.print.toList := by
      rcases h.1 with ⟨s, rfl, hk, -⟩ | he
      · rw [Expr.print]
        exact balanced_name hk
      · exact he.balanced
    simp only [String.toList_append]
    exact ((balanced_key k).append (balanced_of_plain rfl)).append value

theorem close_printParts : ∀ {parts : List TemplatePart}, writtenParts parts →
    ∀ (opened : Nat) (frames : List Frame) (pos : Nat) (rest : List Char),
      close (.quote opened '\x60' :: frames) pos ((printParts parts).toList ++ '\x60' :: rest) =
        (close (.quote opened '\x60' :: frames) (pos + byteLength (printParts parts).toList)
          ('\x60' :: rest)).map (prepend (printParts parts).toList)
  | [], _ => by
    intro opened frames pos rest
    exact Passes.nil _ frames pos _
  | .text t :: parts, h => by
    intro opened frames pos rest
    rw [writtenParts] at h
    rw [printParts, String.toList_append, String.toList_ofList, List.append_assoc,
      close_templateText opened frames _ _ _ (head_printParts h.2.1 _ (by simp)),
      close_printParts h.2.2, map_prepend_prepend, byteLength_append, Nat.add_assoc]
  | .hole e :: parts, h => by
    intro opened frames pos rest
    rw [writtenParts] at h
    have shape : (printParts (.hole e :: parts)).toList =
        '$' :: '{' :: (e.print.toList ++ ['}']) ++ (printParts parts).toList := by
      simp [printParts]
    rw [shape, show '$' :: '{' :: (e.print.toList ++ ['}']) ++ (printParts parts).toList ++
        '\x60' :: rest = '$' :: '{' :: (e.print.toList ++
          '}' :: ((printParts parts).toList ++ '\x60' :: rest)) by simp,
      close_hole h.1.balanced, close_printParts h.2, map_prepend_prepend, byteLength_append,
      Nat.add_assoc]

end

theorem quotable_printParts {parts : List TemplatePart} (h : writtenParts parts) :
    Quotable '\x60' (printParts parts).toList :=
  quotable_of_close (by decide) (close_printParts h)

end LiveTemplate
