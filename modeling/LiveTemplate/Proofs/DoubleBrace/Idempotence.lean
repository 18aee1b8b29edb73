/-
Normalising a normalised source. What a source of the older dialect is turned into holds an opening
bracket of that dialect exactly where a tag brings one along in its content, or where a fragment
that begins with a percent sign follows a single brace. Without these, normalising again changes
nothing; with them it may.
-/
import LiveTemplate.Proofs.DoubleBrace.Passes
import LiveTemplate.Proofs.Text.Trimming

namespace LiveTemplate.DoubleBrace

open Text

variable {a b cs : List Char}

/-! ## Opening brackets -/

/-- Whether a text holds a bracket that opens a tag of the older dialect. -/
def opens (cs : List Char) : Bool := occurs "\x7b\x7b" cs || occurs "\x7b%" cs

/-- Two characters that make an opening bracket. -/
def IsBracket (x y : Char) : Prop := x = '{' ∧ (y = '{' ∨ y = '%')

/-- No two neighbours make an opening bracket. -/
def Calm (cs : List Char) : Prop := cs.IsChain fun x y => ¬ IsBracket x y

theorem opens_eq_false_iff : opens cs = false ↔ Calm cs := by
  rw [opens, Bool.or_eq_false_iff, ← Bool.not_eq_true, ← Bool.not_eq_true, occurs_iff, occurs_iff]
  show ¬ ['{', '{'] <:+: cs ∧ ¬ ['{', '%'] <:+: cs ↔ Calm cs
  induction cs with
  | nil => simp [Calm]
  | cons c cs ih =>
    rw [Calm, List.isChain_cons, ← Calm, ← ih, List.infix_cons_iff, List.infix_cons_iff]
    cases cs with
    | nil => simp
    | cons d cs =>
      simp only [List.cons_prefix_cons, List.nil_prefix, List.head?_cons, Option.mem_def,
        Option.some.injEq, forall_eq', IsBracket]
      grind

theorem detect_eq_false (h : Calm cs) : detect cs = false := by
  rw [← opens_eq_false_iff, opens, Bool.or_eq_false_iff] at h
  have none (pattern : String) (h : occurs pattern cs = false) : fromFirst? pattern cs = none := by
    rw [occurs, Option.isSome_eq_false_iff, Option.isNone_iff_eq_none] at h
    rw [fromFirst?, h, Option.map_none]
  rw [detect, none _ h.1, none _ h.2]
  rfl

theorem calm_append : Calm (a ++ b) ↔
    Calm a ∧ Calm b ∧ ∀ x ∈ a.getLast?, ∀ y ∈ b.head?, ¬ IsBracket x y :=
  List.isChain_append

/-- Only a brace at the end of the first text can make a bracket with the second. -/
theorem calm_append_of_last (h : a.getLast? ≠ some '{') : Calm (a ++ b) ↔ Calm a ∧ Calm b := by
  rw [calm_append]
  refine ⟨fun ⟨ha, hb, _⟩ => ⟨ha, hb⟩, fun ⟨ha, hb⟩ => ⟨ha, hb, ?_⟩⟩
  rintro x hx y - ⟨rfl, -⟩
  exact h hx

theorem calm_append_of_head (h : ∀ y ∈ b.head?, y ≠ '{' ∧ y ≠ '%') :
    Calm (a ++ b) ↔ Calm a ∧ Calm b := by
  rw [calm_append]
  refine ⟨fun ⟨ha, hb, _⟩ => ⟨ha, hb⟩, fun ⟨ha, hb⟩ => ⟨ha, hb, ?_⟩⟩
  rintro x - y hy ⟨-, rfl | rfl⟩
  · exact (h _ hy).1 rfl
  · exact (h _ hy).2 rfl

theorem calm_of_free (h : '{' ∉ cs) : Calm cs := by
  induction cs with
  | nil => exact .nil
  | cons c cs ih =>
    rw [List.mem_cons, not_or] at h
    refine List.isChain_cons.2 ⟨?_, ih h.2⟩
    rintro y - ⟨rfl, -⟩
    exact h.1 rfl

theorem calm_brace (h : cs.head? ≠ some '{') : Calm ('{' :: cs) ↔ cs.head? ≠ some '%' ∧ Calm cs := by
  rw [Calm, List.isChain_cons]
  refine and_congr_left fun _ => ⟨fun free percent => free '%' percent ⟨rfl, .inr rfl⟩, ?_⟩
  rintro free y hy ⟨-, rfl | rfl⟩
  · exact h hy
  · exact free hy

theorem ne_of_blank {c : Char} (h : isBlank c = true) : c ≠ '{' ∧ c ≠ '%' := by
  constructor <;> (rintro rfl; revert h; decide)

theorem calm_of_blanks (h : ∀ c ∈ cs, isBlank c = true) : Calm cs :=
  calm_of_free fun mem => (ne_of_blank (h _ mem)).1 rfl

theorem calm_trim : Calm (trim cs) ↔ Calm cs := by
  obtain ⟨l, r, eq, hl, hr⟩ := trim_split cs
  have left : l.getLast? ≠ some '{' := fun last => (ne_of_blank (hl _ (List.mem_of_getLast? last))).1 rfl
  have right : ∀ y ∈ r.head?, y ≠ '{' ∧ y ≠ '%' := fun y hy => ne_of_blank (hr y (List.mem_of_head? hy))
  conv_rhs => rw [eq]
  rw [calm_append_of_head right, calm_append_of_last left]
  simp [calm_of_blanks hl, calm_of_blanks hr]

theorem calm_splitWord : Calm cs ↔ Calm (splitWord cs).1 ∧ Calm (splitWord cs).2 := by
  have tail : cs.drop (cs.takeWhile (!isBlank ·)).length = cs.dropWhile (!isBlank ·) := calc
    _ = (cs.takeWhile (!isBlank ·) ++ cs.dropWhile (!isBlank ·)).drop
        (cs.takeWhile (!isBlank ·)).length := by rw [List.takeWhile_append_dropWhile]
    _ = _ := List.drop_left
  have stop : ∀ y ∈ (cs.dropWhile (!isBlank ·)).head?, y ≠ '{' ∧ y ≠ '%' := by
    intro y hy
    have := List.head?_dropWhile_not (!isBlank ·) cs
    rw [Option.mem_def] at hy
    exact ne_of_blank (by simpa [hy] using this)
  simp only [splitWord, tail, calm_trim]
  rw [← calm_append_of_head stop, List.takeWhile_append_dropWhile]

/-- Braces around a text whose beginning is harmless. -/
theorem calm_braced {before : String} (free : '{' ∉ before.toList)
    (head : before.toList.head? ∉ [none, some '%']) (body : List Char) :
    Calm (braced before body) ↔ Calm body := by
  obtain ⟨c, before', chars⟩ : ∃ c before', before.toList = c :: before' := by
    cases hb : before.toList with
    | nil => simp [hb] at head
    | cons c before' => exact ⟨c, before', rfl⟩
  have last : ('{' :: before.toList).getLast? ≠ some '{' := by
    rw [chars, List.getLast?_cons_cons, ← chars]
    exact fun last => free (List.mem_of_getLast? last)
  have start : Calm ('{' :: before.toList) := by
    refine List.isChain_cons.2 ⟨?_, calm_of_free free⟩
    rw [chars] at free head ⊢
    rintro y ⟨⟩ ⟨-, rfl | rfl⟩
    · simp at free
    · simp at head
  rw [braced, calm_append_of_head (by simp), calm_append_of_last last]
  simp [start, calm_of_free]

theorem calm_stripBars : Calm (stripBars cs) ↔ Calm cs := by
  unfold stripBars
  split
  · rename_i rest
    split
    · rename_i bar
      -- the bars at both ends make no bracket
      have bar : rest.getLast? = some '|' := by simpa using bar
      have shape : '|' :: rest = ['|'] ++ (rest.dropLast ++ ['|']) := by
        rw [List.dropLast_append_getLast? _ bar]
        rfl
      rw [shape, calm_append_of_last (by simp), calm_append_of_head (by simp)]
      simp [calm_of_free]
    · rfl
  · rfl

theorem calm_eachTag (rest : List Char) : Calm (eachTag rest) ↔ Calm rest := by
  have joined (c b : List Char) : Calm (c ++ " as ".toList ++ b) ↔ Calm c ∧ Calm b := by
    rw [calm_append_of_last (by simp), calm_append_of_head (by simp)]
    simp [calm_of_free]
  unfold eachTag
  cases hs : splitAtLast? " as ".toList rest with
  | none =>
    dsimp only
    rw [calm_braced (by decide) (by decide), joined]
    simp [calm_of_free]
  | some found =>
    obtain ⟨c, b⟩ := found
    dsimp only
    rw [calm_braced (by decide) (by decide), joined, calm_trim, calm_trim, calm_stripBars, calm_trim,
      ← joined, ← splitAtLast?_eq hs]

/-! ## Tags -/

/-- Whether a piece leaves an opening bracket in what it is turned into. -/
def Piece.leavesBracket : Piece → Bool
  | char _ => false
  | brace next => next == some '%'
  | tag inside _ =>
    let tag := trim inside
    tag.head? != some '!' && (opens tag || tag.head? == some '%' && tag.getLast? != some '}')
  | triple inside => opens inside

/-- The words that say what a tag is, loops apart. -/
def tagWords : List String :=
  ["html", "json", "#if", "#unless", "#for", "else", "/if", "/unless", "/each", "/for"]

/-- What stands between the brace and the rest of the tag that such a word is turned into. -/
def tagHeads : List String :=
  ["@html ", "@json ", "#if ", "#unless ", "#for ", ":else", ":else ", "/if", "/unless", "/each", "/for"]

/-- What a tag can be turned into. -/
inductive Shows (tag : List Char) : List Char → Prop where
  | comment (h : tag.head? = some '!') : Shows tag []
  | ampersand (h : tag.head? = some '&') : Shows tag (braced "@html " (trim (tag.drop 1)))
  | keyword {word before : String} (h : (splitWord tag).1 = word.toList)
    (known : word ∈ tagWords) (shape : before ∈ tagHeads) : Shows tag (braced before (splitWord tag).2)
  | each (h : (splitWord tag).1 = "#each".toList) : Shows tag (eachTag (splitWord tag).2)
  | padded (h : tag.head? ≠ some '!') (h' : tag.head? = some '{' ∨ tag.getLast? = some '}') :
    Shows tag (braced " " (tag ++ [' ']))
  | plain (h : tag.head? ≠ some '!') (h' : tag.head? ≠ some '{') (last : tag.getLast? ≠ some '}') :
    Shows tag (braced "" tag)

theorem shows_of_convertTag {inside shown : List Char} {span : Span}
    (h : convertTag inside span = .ok shown) : Shows (trim inside) shown := by
  unfold convertTag at h
  dsimp only at h
  generalize trim inside = tag at *
  have word (k : String) (hk : String.ofList (splitWord tag).1 = k) : (splitWord tag).1 = k.toList := by
    rw [← hk, String.toList_ofList]
  -- one test after the other
  obtain ⟨comment, h⟩ | ⟨comment, h⟩ := ite_eq_iff.1 h
  · cases h
    exact .comment (by simpa using comment)
  have comment : tag.head? ≠ some '!' := by simpa using comment
  obtain ⟨sign, h⟩ | ⟨-, h⟩ := ite_eq_iff.1 h
  · cases h
    exact .ampersand (by simpa using sign)
  obtain ⟨known, h⟩ | ⟨-, h⟩ := ite_eq_iff.1 h
  · cases h
    exact .keyword (word _ known.1) (by decide) (by decide)
  obtain ⟨known, h⟩ | ⟨-, h⟩ := ite_eq_iff.1 h
  · cases h
    exact .keyword (word _ known.1) (by decide) (by decide)
  obtain ⟨known, h⟩ | ⟨-, h⟩ := ite_eq_iff.1 h
  · cases h
    generalize hk : String.ofList (splitWord tag).1 = k at known ⊢
    have known : k = "#if" ∨ k = "#unless" ∨ k = "#for" := by simpa using known
    obtain rfl | rfl | rfl := known <;> exact .keyword (word _ hk) (by decide) (by decide)
  obtain ⟨known, h⟩ | ⟨-, h⟩ := ite_eq_iff.1 h
  · cases h
    exact .each (word _ known)
  obtain ⟨known, h⟩ | ⟨-, h⟩ := ite_eq_iff.1 h
  · cases h
    rw [← List.isEmpty_iff.1 known.2]
    exact .keyword (word _ known.1) (by decide) (by decide)
  obtain ⟨known, h⟩ | ⟨-, h⟩ := ite_eq_iff.1 h
  · cases h
    exact .keyword (word _ known.1) (by decide) (by decide)
  obtain ⟨known, h⟩ | ⟨-, h⟩ := ite_eq_iff.1 h
  · cases h
    rw [← List.isEmpty_iff.1 known.2]
    generalize hk : String.ofList (splitWord tag).1 = k at known ⊢
    have known : k = "/if" ∨ k = "/unless" ∨ k = "/each" ∨ k = "/for" := by simpa using known.1
    obtain rfl | rfl | rfl | rfl := known <;> exact .keyword (word _ hk) (by decide) (by decide)
  obtain ⟨-, h⟩ | ⟨-, h⟩ := ite_eq_iff.1 h
  · cases h
  obtain ⟨brace, h⟩ | ⟨brace, h⟩ := ite_eq_iff.1 h
  · cases h
    exact .padded comment (by simpa using brace)
  · cases h
    have brace : tag.head? ≠ some '{' ∧ tag.getLast? ≠ some '}' := by simpa using brace
    exact .plain comment brace.1 brace.2

theorem head?_of_splitWord {c : Char} {w : List Char} (h : (splitWord cs).1 = c :: w) :
    cs.head? = some c := by
  have h : cs.takeWhile (!isBlank ·) = c :: w := h
  rw [← List.takeWhile_append_dropWhile (p := (!isBlank ·)) (l := cs), h]
  rfl

/-- What a tag is turned into holds a bracket just when the tag leaves one. -/
theorem Shows.calm_iff {inside shown : List Char} (h : Shows (trim inside) shown) :
    Calm shown ↔ (Piece.tag inside shown).leavesBracket = false := by
  have quiet (h : (trim inside).head? ≠ some '!') (h' : (trim inside).head? ≠ some '%') :
      (Piece.tag inside shown).leavesBracket = false ↔ Calm (trim inside) := by
    simp [Piece.leavesBracket, h, h', opens_eq_false_iff]
  have worded {word : String} (h : (splitWord (trim inside)).1 = word.toList)
      (plain : '{' ∉ word.toList ∧ word.toList.head? ∉ [none, some '!', some '%']) :
      (Piece.tag inside shown).leavesBracket = false ↔ Calm (splitWord (trim inside)).2 := by
    obtain ⟨free, head⟩ := plain
    cases hw : word.toList with
    | nil => simp [hw] at head
    | cons c w =>
      have first := head?_of_splitWord (h.trans hw)
      have head : c ≠ '!' ∧ c ≠ '%' := by simpa [hw] using head
      rw [quiet (by simp [first, head.1]) (by simp [first, head.2]), calm_splitWord, h]
      simp [calm_of_free free]
  cases h with
  | comment h => simp [Piece.leavesBracket, h, calm_of_free]
  | ampersand h =>
    rw [quiet (by simp [h]) (by simp [h]), calm_braced (by decide) (by decide), calm_trim]
    cases ht : trim inside with
    | nil => simp [ht] at h
    | cons c tag =>
      have sign : c = '&' := by simpa [ht] using h
      rw [← List.singleton_append, calm_append_of_last (by simp [sign])]
      simp [Calm]
  | @keyword word before h known shape =>
    have words : ∀ word ∈ tagWords, '{' ∉ word.toList ∧
        word.toList.head? ∉ [none, some '!', some '%'] := by decide +kernel
    have heads : ∀ before ∈ tagHeads, '{' ∉ before.toList ∧
        before.toList.head? ∉ [none, some '%'] := by decide +kernel
    obtain ⟨free, head⟩ := heads before shape
    rw [calm_braced free head, worded h (words word known)]
  | each h => rw [calm_eachTag, worded h (by decide)]
  | padded h h' =>
    rw [calm_braced (by decide) (by decide), calm_append_of_head (by simp)]
    obtain brace | brace := h' <;>
      simp [Piece.leavesBracket, brace, h, opens_eq_false_iff, calm_of_free]
  | plain h h' last =>
    rw [braced, calm_append_of_head (by simp)]
    simp [Piece.leavesBracket, h, last, opens_eq_false_iff, calm_of_free, calm_brace h', and_comm]

theorem Shows.getLast? {tag shown : List Char} (h : Shows tag shown) :
    shown.getLast? ≠ some '{' := by
  have ends (before : String) (body : List Char) : (braced before body).getLast? ≠ some '{' := by
    rw [braced, List.getLast?_append_of_ne_nil _ (by simp)]
    simp
  cases h with
  | comment => simp
  | _ => exact ends _ _

/-! ## Pieces -/

theorem head?_written {text : List Char} {pieces : List Piece} (h : Cut text pieces)
    (single : text.head? ≠ some '{') : (pieces.flatMap Piece.written).head? = text.head? := by
  cases h with
  | nil => rfl
  | char => rfl
  | brace | tag | triple => exact absurd rfl single

/-- Converting a text leaves an opening bracket just when one of its pieces does: none arises where
two pieces meet, but behind a single brace. -/
theorem calm_written {text : List Char} {pieces : List Piece} (h : Cut text pieces) :
    Calm (pieces.flatMap Piece.written) ↔ ∀ p ∈ pieces, p.leavesBracket = false := by
  induction h with
  | nil => simp [calm_of_free]
  | char hc _ ih =>
    rw [List.flatMap_cons, Piece.written, calm_append_of_last (by simpa using hc), ih]
    simp [Piece.leavesBracket, Calm]
  | @brace rest pieces single h ih =>
    have next := head?_written h single
    have first : (pieces.flatMap Piece.written).head? ≠ some '{' := by rwa [next]
    show Calm (['\\'] ++ '{' :: pieces.flatMap Piece.written) ↔ _
    rw [calm_append_of_last (by simp), calm_brace first, ih, next]
    simp [Piece.leavesBracket, Calm]
  | @tag rest inside after shown pieces double closed converted _ ih =>
    have shows := shows_of_convertTag (converted default)
    rw [List.flatMap_cons, Piece.written, calm_append_of_last shows.getLast?, ih, shows.calm_iff,
      List.forall_mem_cons]
  | @triple rest inside after pieces closed _ ih =>
    have last : (braced "@html " (trim inside)).getLast? ≠ some '{' := by
      rw [braced, List.getLast?_append_of_ne_nil _ (by simp)]
      simp
    rw [List.flatMap_cons, Piece.written, calm_append_of_last last, ih,
      calm_braced (by decide) (by decide), calm_trim, List.forall_mem_cons, Piece.leavesBracket,
      opens_eq_false_iff]

/-! ## Normalising again -/

/-- Whether some piece of a source, with fragments in place, leaves an opening bracket. -/
def LeavesBracket (source : String) : Prop :=
  ∃ text pieces, expansion source.toList = .ok text ∧ Cut text pieces ∧
    ∃ p ∈ pieces, p.leavesBracket = true

/-- The result of normalising a source of the older dialect holds an opening bracket just when a
piece of the source leaves one. -/
theorem opens_normalize {source out : String} (dialect : detect source.toList = true)
    (h : normalize source = .ok out) : opens out.toList = true ↔ LeavesBracket source := by
  have written {text : List Char} {pieces : List Piece} (expanded : expansion source.toList = .ok text)
      (cut : Cut text pieces) : opens out.toList = true ↔ ∃ p ∈ pieces, p.leavesBracket = true := by
    have same : out = String.ofList (pieces.flatMap Piece.written) :=
      Except.ok.inj (h.symm.trans ((normalize_eq_ok_iff dialect).2 ⟨text, pieces, expanded, cut, rfl⟩))
    have quiet := calm_written cut
    rw [← opens_eq_false_iff] at quiet
    rw [same, String.toList_ofList, ← not_iff_not, Bool.not_eq_true, quiet]
    simp
  constructor
  · intro opened
    obtain ⟨text, pieces, expanded, cut, -⟩ := (normalize_eq_ok_iff dialect).1 h
    exact ⟨text, pieces, expanded, cut, (written expanded cut).1 opened⟩
  · rintro ⟨text, pieces, expanded, cut, leaves⟩
    exact (written expanded cut).2 leaves

theorem normalize_of_not_detect {source : String} (h : detect source.toList = false) :
    normalize source = .ok source := by
  unfold normalize
  simp only [h, Bool.not_false, if_true]
  rfl

/-- Normalising is idempotent wherever no piece of the source leaves an opening bracket behind; and
a normalised source of the older dialect holds such a bracket only where a piece left it. -/
theorem normalize_idempotent {source out : String} (h : normalize source = .ok out) :
    (¬ LeavesBracket source → normalize out = .ok out) ∧
      (detect source.toList = true → (opens out.toList = true ↔ LeavesBracket source)) := by
  refine ⟨fun quiet => ?_, fun dialect => opens_normalize dialect h⟩
  by_cases dialect : detect source.toList = true
  · rw [← opens_normalize dialect h, Bool.not_eq_true, opens_eq_false_iff] at quiet
    exact normalize_of_not_detect (detect_eq_false quiet)
  · have same := normalize_of_not_detect (Bool.not_eq_true _ ▸ dialect)
    rw [h] at same
    rwa [← Except.ok.inj same] at h

/-- A source with fragments, a percent bracket, a comment that holds a bracket, and single braces. -/
theorem normalize_idempotent_fragment :
    let source := "\x7b\x7b#block b\x7d\x7d<b>\x7b% x %\x7d</b>\x7b\x7b/block\x7d\x7d\x7b\x7b! \x7b\x7b \x7d\x7d\x7b\x7b> b\x7d\x7d 50% \x7b y"
    let out := "<b>\x7bx\x7d</b> 50% \\\x7b y"
    normalize source = .ok out ∧ normalize out = .ok out := by
  intro source out
  have once : normalize source = .ok out := ok_of_toOption (by decide +kernel)
  have dialect : detect source.toList = true := by decide +kernel
  have calm : opens out.toList = false := by decide +kernel
  obtain ⟨again, left⟩ := normalize_idempotent once
  have quiet : ¬ LeavesBracket source := by
    rw [← left dialect, calm]
    decide
  exact ⟨once, again quiet⟩

/-- A string in a tag that looks like a tag itself is converted when the result is normalised
again. -/
theorem normalize_string_again :
    let out := "\x7b\"\x7b\x7ba\x7d\x7d\"\x7d"
    normalize "\x7b\x7b\"\x7b\x7ba\x7d\x7d\"\x7d\x7d" = .ok out ∧
      normalize out = .ok "\\\x7b\"\x7ba\x7d\"\x7d" ∧ normalize out ≠ .ok out := by
  intro out
  have once : normalize "\x7b\x7b\"\x7b\x7ba\x7d\x7d\"\x7d\x7d" = .ok out :=
    ok_of_toOption (by decide +kernel)
  have twice : normalize out = .ok "\\\x7b\"\x7ba\x7d\"\x7d" := ok_of_toOption (by decide +kernel)
  refine ⟨once, twice, ?_⟩
  rw [twice]
  exact fun same => absurd (Except.ok.inj same) (by decide)

end LiveTemplate.DoubleBrace
