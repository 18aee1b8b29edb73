/-
The scans for delimiters on bytes, whatever bytes they are. A scan does one thing at each byte, and
where another delimiter opens it goes on behind the end of that. So every scan that starts at its
delimiter comes to an end, no brace is closed that was not opened, and an end is behind the byte that
closes the delimiter; it depends on the bytes before it alone.
-/
import LiveTemplate.Delimiter
import Mathlib.Tactic

namespace LiveTemplate.Delimiter

/-! ## Scans -/

/-- What the end is looked for of. -/
inductive Scan where
  /-- Braces, `depth` of which are open. -/
  | braces (opened depth : Nat)
  /-- A string, or an attribute value, where no byte is guarded. -/
  | quoted (opened : Nat) (mark : UInt8) (escapes : Bool)
  | tag (opened : Nat)
deriving Repr, DecidableEq

namespace Scan

/-- What is missing if the bytes end inside. -/
def unclosed : Scan → Unclosed
  | braces opened _ => .brace opened
  | quoted opened _ _ => .quote opened
  | tag opened => .tag opened

/-- The byte that closes it. -/
def closer : Scan → UInt8
  | braces _ _ => '}'.toUInt8
  | quoted _ mark _ => mark
  | tag _ => '>'.toUInt8

end Scan

/-- What a scan does at an offset. -/
inductive Move where
  /-- There is no byte. -/
  | missing
  /-- The byte there closes it. -/
  | done
  | go (scan : Scan) (next : Nat)
  /-- Something else opens; the scan goes on behind its end. -/
  | enter (inner : Scan) (start : Nat)
  /-- A brace is closed where none is open. -/
  | underflow

namespace Scan

/-- What a scan does at an offset of some bytes. -/
def move (s : List UInt8) (i : Nat) (scan : Scan) : Move :=
  match s[i]? with
  | none => .missing
  | some b =>
    match scan with
    | braces opened depth =>
      if b = '{'.toUInt8 then .go (braces opened (depth + 1)) (i + 1)
      else if b = '}'.toUInt8 then
        match depth with
        | 0 => .underflow
        | 1 => .done
        | depth + 2 => .go (braces opened (depth + 1)) (i + 1)
      else if b = '"'.toUInt8 ∨ b = '\''.toUInt8 ∨ b = '\x60'.toUInt8 then
        .enter (quoted i b true) (i + 1)
      else .go scan (i + 1)
    | quoted _ mark escapes =>
      if b = '\\'.toUInt8 ∧ escapes then .go scan (i + 2)
      else if b = '$'.toUInt8 ∧ escapes ∧ mark = '\x60'.toUInt8 ∧ s[i + 1]? = some '{'.toUInt8 then
        .enter (braces (i + 1) 0) (i + 1)
      else if b = mark then .done
      else .go scan (i + 1)
    | tag _ =>
      if b = '>'.toUInt8 then .done
      else if b = '"'.toUInt8 ∨ b = '\''.toUInt8 then .enter (quoted i b false) (i + 1)
      else if b = '{'.toUInt8 then .enter (braces i 0) i
      else .go scan (i + 1)

end Scan

/-- From an offset on, a scan comes to an end: the offset behind the byte that closes it, or the
innermost delimiter without its partner. A brace that is closed where none is open leads nowhere. -/
inductive ScanEnds (s : List UInt8) : Scan → Nat → Except Unclosed Nat → Prop
  | missing {scan : Scan} {i : Nat} :
    scan.move s i = .missing → ScanEnds s scan i (.error scan.unclosed)
  | done {scan : Scan} {i : Nat} : scan.move s i = .done → ScanEnds s scan i (.ok (i + 1))
  | go {scan scan' : Scan} {i next : Nat} {out : Except Unclosed Nat} :
    scan.move s i = .go scan' next → ScanEnds s scan' next out → ScanEnds s scan i out
  | enter {scan inner : Scan} {i start j : Nat} {out : Except Unclosed Nat} :
    scan.move s i = .enter inner start → ScanEnds s inner start (.ok j) → ScanEnds s scan j out →
      ScanEnds s scan i out
  | inner {scan inner : Scan} {i start : Nat} {unclosed : Unclosed} :
    scan.move s i = .enter inner start → ScanEnds s inner start (.error unclosed) →
      ScanEnds s scan i (.error unclosed)

/-- A scan, or one for what opens in it, comes to an offset. -/
inductive Comes (s : List UInt8) : Scan → Nat → Scan → Nat → Prop
  | here (scan : Scan) (i : Nat) : Comes s scan i scan i
  | go {scan scan' later : Scan} {i next j : Nat} :
    scan.move s i = .go scan' next → Comes s scan' next later j → Comes s scan i later j
  | into {scan inner later : Scan} {i start j : Nat} :
    scan.move s i = .enter inner start → Comes s inner start later j → Comes s scan i later j
  | behind {scan inner later : Scan} {i start k j : Nat} :
    scan.move s i = .enter inner start → ScanEnds s inner start (.ok k) → Comes s scan k later j →
      Comes s scan i later j

/-! ## One byte -/

namespace Scan

/-- Braces of which none is open yet are at the first one. -/
def Ready (s : List UInt8) (i : Nat) : Scan → Prop
  | braces _ 0 => s[i]? = some '{'.toUInt8
  | _ => True

/-- What is left of the bytes for a scan; a tag has the brace that opens in it before it. -/
def left (s : List UInt8) (i : Nat) : Scan → Nat
  | tag _ => 2 * (s.length - i) + 1
  | _ => 2 * (s.length - i)

end Scan

/-- What holds of everything that a scan does at an offset. -/
def Move.Sound (s : List UInt8) (i : Nat) (scan : Scan) : Move → Prop
  | missing => s[i]? = none
  | done => s[i]? = some scan.closer
  | go scan' next => i < s.length ∧ i < next ∧ scan'.closer = scan.closer ∧
      scan'.left s next < scan.left s i ∧ (scan.Ready s i → ∀ j, scan'.Ready s j)
  | enter inner start => i < s.length ∧ i ≤ start ∧ inner.left s start < scan.left s i ∧
      inner.Ready s start ∧ (scan.Ready s i → ∀ j, scan.Ready s j)
  | underflow => ¬ scan.Ready s i

namespace Scan

theorem move_sound (s : List UInt8) (i : Nat) (scan : Scan) : (scan.move s i).Sound s i scan := by
  unfold move
  rcases hb : s[i]? with _ | b
  · exact hb
  have inside : i < s.length := (List.getElem?_eq_some_iff.1 hb).1
  cases scan with
  | braces opened depth =>
    -- before the first brace is read none is open, and any other byte there is no brace
    have unopened (other : b ≠ '{'.toUInt8) (ready : (braces opened depth).Ready s i) (j : Nat) :
        (braces opened depth).Ready s j := by
      cases depth with
      | zero =>
        rw [Ready, hb] at ready
        exact absurd (Option.some.inj ready) other
      | succ => trivial
    dsimp only
    split_ifs with opens closes quote
    · exact ⟨inside, by omega, rfl, by simp only [left]; omega, fun _ _ => trivial⟩
    · rcases depth with _ | _ | depth
      · intro ready
        rw [Ready, hb, closes] at ready
        exact absurd (Option.some.inj ready) (by decide)
      · rw [Move.Sound, hb, closes]
        rfl
      · exact ⟨inside, by omega, rfl, by simp only [left]; omega, fun _ _ => trivial⟩
    · exact ⟨inside, by omega, by simp only [left]; omega, trivial, unopened opens⟩
    · exact ⟨inside, by omega, rfl, by simp only [left]; omega, unopened opens⟩
  | quoted opened mark escapes =>
    dsimp only
    split_ifs with guard hole closes
    · exact ⟨inside, by omega, rfl, by simp only [left]; omega, fun _ _ => trivial⟩
    · exact ⟨inside, by omega, by simp only [left]; omega, hole.2.2.2, fun _ _ => trivial⟩
    · rw [Move.Sound, hb, closes]
      rfl
    · exact ⟨inside, by omega, rfl, by simp only [left]; omega, fun _ _ => trivial⟩
  | tag opened =>
    dsimp only
    split_ifs with closes quote opens
    · rw [Move.Sound, hb, closes]
      rfl
    · exact ⟨inside, by omega, by simp only [left]; omega, trivial, fun _ _ => trivial⟩
    · rw [opens] at hb
      exact ⟨inside, le_rfl, by simp only [left]; omega, hb, fun _ _ => trivial⟩
    · exact ⟨inside, by omega, rfl, by simp only [left]; omega, fun _ _ => trivial⟩

/-- A scan that goes on further back has less left. -/
theorem left_lt {s : List UInt8} {i j : Nat} (h : i < j) (inside : i < s.length) (scan : Scan) :
    scan.left s j < scan.left s i := by
  cases scan <;> simp only [left] <;> omega

/-- What a scan does at an offset is told by the byte there and, if it goes on, the one behind. -/
theorem move_congr {s s' : List UInt8} {i : Nat} (scan : Scan) (here : s'[i]? = s[i]?)
    (behind : scan.move s i ≠ .done → s'[i + 1]? = s[i + 1]?) : scan.move s' i = scan.move s i := by
  by_cases last : scan.move s i = .done
  · unfold move at last ⊢
    rw [here]
    rcases hb : s[i]? with _ | b
    · rfl
    rw [hb] at last
    cases scan with
    | braces => rfl
    | tag => rfl
    | quoted opened mark escapes =>
      dsimp only at last ⊢
      split_ifs at last with guard hole closes
      -- the byte is the mark, and no dollar quotes a template string
      have solid : ¬ (b = '$'.toUInt8 ∧ escapes ∧ mark = '\x60'.toUInt8 ∧
          s'[i + 1]? = some '{'.toUInt8) := by
        rintro ⟨dollar, -, template, -⟩
        rw [closes, template] at dollar
        exact absurd dollar (by decide)
      rw [if_neg guard, if_neg guard, if_neg hole, if_neg solid]
  · unfold move
    rw [here, behind last]

end Scan

/-! ## Whole scans -/

section

variable {s : List UInt8} {scan : Scan} {i j : Nat}

/-- An end is behind the byte that closes. -/
theorem ScanEnds.bounds (h : ScanEnds s scan i (.ok j)) :
    i < j ∧ j ≤ s.length ∧ s[j - 1]? = some scan.closer := by
  generalize hout : Except.ok j = out at h
  induction h generalizing j with
  | missing => cases hout
  | @done scan i move =>
    cases hout
    have closes := scan.move_sound s i
    rw [move] at closes
    exact ⟨i.lt_succ_self, (List.getElem?_eq_some_iff.1 closes).1, closes⟩
  | @go scan scan' i next out move _ ih =>
    have sound := scan.move_sound s i
    rw [move] at sound
    obtain ⟨-, onward, closer, -⟩ := sound
    obtain ⟨behind, inside, byte⟩ := ih hout
    exact ⟨onward.trans behind, inside, closer ▸ byte⟩
  | @enter scan inner i start k out move _ _ ih ih' =>
    have sound := scan.move_sound s i
    rw [move] at sound
    obtain ⟨-, onward, -⟩ := sound
    obtain ⟨entered, -⟩ := ih rfl
    obtain ⟨behind, closes⟩ := ih' hout
    exact ⟨(onward.trans_lt entered).trans behind, closes⟩
  | inner => cases hout

/-- From an offset where it may begin, a scan comes to an end. -/
theorem exists_ends (s : List UInt8) (scan : Scan) (i : Nat) (ready : scan.Ready s i) :
    ∃ out, ScanEnds s scan i out := by
  -- by induction on what is left for the scan
  induction hn : scan.left s i using Nat.strong_induction_on generalizing scan i with
  | _ n ih =>
    subst hn
    have sound := scan.move_sound s i
    rcases move : scan.move s i with _ | _ | ⟨scan', next⟩ | ⟨inner, start⟩ | _
    · exact ⟨_, .missing move⟩
    · exact ⟨_, .done move⟩
    · rw [move] at sound
      obtain ⟨-, -, -, less, open'⟩ := sound
      obtain ⟨out, ends⟩ := ih _ less scan' next (open' ready next) rfl
      exact ⟨out, .go move ends⟩
    · rw [move] at sound
      obtain ⟨inside, onward, less, ready', open'⟩ := sound
      obtain ⟨out, entered⟩ := ih _ less inner start ready' rfl
      rcases out with unclosed | j
      · exact ⟨_, .inner move entered⟩
      · have behind := onward.trans_lt entered.bounds.1
        obtain ⟨out, ends⟩ := ih _ (Scan.left_lt behind inside scan) scan j (open' ready j) rfl
        exact ⟨out, .enter move entered ends⟩
    · rw [move] at sound
      exact absurd ready sound

/-- A scan comes to one end only. -/
theorem ScanEnds.unique {out out' : Except Unclosed Nat} (h : ScanEnds s scan i out)
    (h' : ScanEnds s scan i out') : out = out' := by
  induction h generalizing out' with
  | missing move =>
    cases h' with
    | missing => rfl
    | done move' | go move' | enter move' | inner move' => cases move.symm.trans move'
  | done move =>
    cases h' with
    | done => rfl
    | missing move' | go move' | enter move' | inner move' => cases move.symm.trans move'
  | go move _ ih =>
    cases h' with
    | go move' rest =>
      cases move.symm.trans move'
      exact ih rest
    | missing move' | done move' | enter move' | inner move' => cases move.symm.trans move'
  | enter move _ _ ih ih' =>
    cases h' with
    | enter move' inner rest =>
      cases move.symm.trans move'
      cases ih inner
      exact ih' rest
    | inner move' inner =>
      cases move.symm.trans move'
      cases ih inner
    | missing move' | done move' | go move' => cases move.symm.trans move'
  | inner move _ ih =>
    cases h' with
    | enter move' inner =>
      cases move.symm.trans move'
      cases ih inner
    | inner move' inner =>
      cases move.symm.trans move'
      exact ih inner
    | missing move' | done move' | go move' => cases move.symm.trans move'

/-- The bytes before an end tell it. -/
theorem ScanEnds.congr (h : ScanEnds s scan i (.ok j)) {s' : List UInt8}
    (same : ∀ k < j, s'[k]? = s[k]?) : ScanEnds s' scan i (.ok j) := by
  have bounds := h.bounds
  generalize hout : Except.ok j = out at h
  induction h generalizing j with
  | missing => cases hout
  | @done scan i move =>
    cases hout
    refine .done ?_
    rw [scan.move_congr (same i i.lt_succ_self) fun on => absurd move on, move]
  | @go scan scan' i next out move rest ih =>
    subst hout
    have sound := scan.move_sound s i
    rw [move] at sound
    obtain ⟨-, onward, -⟩ := sound
    have ends := rest.bounds
    refine .go ?_ (ih same ends rfl)
    rw [scan.move_congr (same i bounds.1) fun _ => same (i + 1) (by omega), move]
  | @enter scan inner i start k out move entered rest ih ih' =>
    subst hout
    have sound := scan.move_sound s i
    rw [move] at sound
    obtain ⟨-, onward, -⟩ := sound
    have ends := entered.bounds
    have ends' := rest.bounds
    refine .enter ?_ (ih (fun n hn => same n (hn.trans ends'.1)) ends rfl) (ih' same ends' rfl)
    rw [scan.move_congr (same i bounds.1) fun _ => same (i + 1) (by omega), move]
  | inner => cases hout

/-- Wherever a scan comes to, braces of which none is open are at the first one. -/
theorem Comes.ready {later : Scan} (h : Comes s scan i later j) (ready : scan.Ready s i) :
    later.Ready s j := by
  induction h with
  | here => exact ready
  | @go scan scan' later i next j move _ ih =>
    have sound := scan.move_sound s i
    rw [move] at sound
    obtain ⟨-, -, -, -, open'⟩ := sound
    exact ih (open' ready next)
  | @into scan inner later i start j move _ ih =>
    have sound := scan.move_sound s i
    rw [move] at sound
    obtain ⟨-, -, -, ready', -⟩ := sound
    exact ih ready'
  | @behind scan inner later i start k j move _ _ ih =>
    have sound := scan.move_sound s i
    rw [move] at sound
    obtain ⟨-, -, -, -, open'⟩ := sound
    exact ih (open' ready k)

theorem Comes.move_ne_underflow {later : Scan} (h : Comes s scan i later j)
    (ready : scan.Ready s i) : later.move s j ≠ .underflow := by
  intro move
  have sound := later.move_sound s j
  rw [move] at sound
  exact sound (h.ready ready)

end

/-! ## Scans from their delimiters -/

/-- What opens a scan. -/
inductive Opener where
  | brace
  | quoted (mark : UInt8) (escapes : Bool)
  | tag
deriving Repr, DecidableEq

namespace Opener

def byte : Opener → UInt8
  | brace => '{'.toUInt8
  | quoted mark _ => mark
  | tag => '<'.toUInt8

/-- The byte that closes what it opens. -/
def closer : Opener → UInt8
  | brace => '}'.toUInt8
  | quoted mark _ => mark
  | tag => '>'.toUInt8

/-- The scan for the end, from an opening at an offset: braces are counted from their first one on. -/
def scan (opened : Nat) : Opener → Scan
  | brace => .braces opened 0
  | quoted mark escapes => .quoted opened mark escapes
  | tag => .tag opened

def start (opened : Nat) : Opener → Nat
  | brace => opened
  | quoted _ _ | tag => opened + 1

/-- From an opening at an offset, the scan comes to an end. -/
def Ends (s : List UInt8) (opened : Nat) (opening : Opener) : Except Unclosed Nat → Prop :=
  ScanEnds s (opening.scan opened) (opening.start opened)

/-- The scan from an opening comes to one end and closes no brace on its way that is not open; an
offset that it ends at is behind the byte that closes, and the bytes before it alone tell it. -/
structure Settles (s : List UInt8) (opened : Nat) (opening : Opener) : Prop where
  total : ∃! out, opening.Ends s opened out
  counted : ∀ later i, Comes s (opening.scan opened) (opening.start opened) later i →
    later.move s i ≠ .underflow
  closed : ∀ j, opening.Ends s opened (.ok j) →
    opened < j ∧ j ≤ s.length ∧ s[j - 1]? = some opening.closer
  stable : ∀ j, opening.Ends s opened (.ok j) → ∀ s' : List UInt8, s'.take j = s.take j →
    ∀ out, opening.Ends s' opened out ↔ out = .ok j

theorem closer_scan (opening : Opener) (opened : Nat) :
    (opening.scan opened).closer = opening.closer := by
  cases opening <;> rfl

theorem le_start (opening : Opener) (opened : Nat) : opened ≤ opening.start opened := by
  cases opening with
  | brace => exact le_rfl
  | quoted | tag => exact Nat.le_succ opened

theorem ready_scan {s : List UInt8} {opened : Nat} {opening : Opener}
    (here : s[opened]? = some opening.byte) :
    (opening.scan opened).Ready s (opening.start opened) := by
  cases opening with
  | brace => exact here
  | quoted | tag => trivial

theorem settles {s : List UInt8} {opened : Nat} {opening : Opener}
    (here : s[opened]? = some opening.byte) : opening.Settles s opened where
  total := by
    obtain ⟨out, ends⟩ := exists_ends s _ _ (ready_scan here)
    exact ⟨out, ends, fun out' ends' => ends'.unique ends⟩
  counted later i comes := comes.move_ne_underflow (ready_scan here)
  closed j ends := by
    obtain ⟨behind, inside, byte⟩ := ends.bounds
    exact ⟨(opening.le_start opened).trans_lt behind, inside, opening.closer_scan opened ▸ byte⟩
  stable j ends s' same out := by
    have bytes (k : Nat) (hk : k < j) : s'[k]? = s[k]? := by
      rw [← List.getElem?_take_of_lt hk, same, List.getElem?_take_of_lt hk]
    have ends' := ends.congr bytes
    exact ⟨fun other => other.unique ends', fun same => same ▸ ends'⟩

end Opener

end LiveTemplate.Delimiter
