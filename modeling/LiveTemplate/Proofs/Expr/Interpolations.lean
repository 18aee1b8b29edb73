/-
The interpolations of an expression, whether it can be parsed or not. Lexing a region comes to one
token after the other; reading the text of a template string comes to one place in it after the other;
and where a dollar and a brace stand there, an interpolation begins, which holds a region again. These
are all the regions that the parser reads: a delimiter without its partner that it reports is one of a
region that is reached.
-/
import LiveTemplate.Proofs.Expr.Derivation
import Mathlib.Logic.Relation

namespace LiveTemplate

open Text Relation

namespace Grammar

/-! ## Reading on -/

/-- A token that lexing a region comes to, whatever stands behind it. -/
inductive Meets : Region → Lexeme → Prop
  | here {r : Region} {c : Char} {rest : List Char} {t : Token} {n : Nat} :
    (r.dropWhile isBlank).text = c :: rest →
    token (r.dropWhile isBlank).start (r.dropWhile isBlank).stop c rest = .ok (t, n) →
      Meets r ⟨t, ((r.dropWhile isBlank).take n).span⟩
  | later {r : Region} {c : Char} {rest : List Char} {t : Token} {n : Nat} {l : Lexeme} :
    (r.dropWhile isBlank).text = c :: rest →
    token (r.dropWhile isBlank).start (r.dropWhile isBlank).stop c rest = .ok (t, n) →
    Meets ((r.dropWhile isBlank).drop n) l → Meets r l

/-- A dollar and a brace stand at an offset in a template string of a region, and `rest` follows in the
string. -/
def OpensAt (r : Region) (pos : Nat) (rest : List Char) : Prop :=
  ∃ body span, Meets r ⟨.template body, span⟩ ∧ Scans (span.start + 1) body pos ('$' :: '{' :: rest)

/-- A region and that of an interpolation in it. -/
inductive Interpolation (r : Region) : Region → Prop
  | hole {pos : Nat} {rest inside after : List Char} : OpensAt r pos rest →
    Delimiter.closeBrace (pos + 1) rest = .ok (inside, after) →
      Interpolation r ⟨pos + 2, inside.dropLast⟩

/-- Lexing a region finds no string undelimited, and no interpolation in it is unclosed. The brace that
closes one stands in the same string, whatever more may follow that in the source. -/
structure Delimited (r : Region) : Prop where
  strings : ∀ {fault}, tokenize r = .error fault → fault.cause.kind ≠ .lexical
  interpolations : ∀ {pos rest}, OpensAt r pos rest → ∃ inside after, ∀ more,
    Delimiter.closeBrace (pos + 1) (rest ++ more) = .ok (inside, after ++ more)

/-! ## What is reported -/

variable {α β : Type} {r : Region} {reason : Prop}

/-- A computation gives what has a property, or a fault; and a fault about a delimiter has a reason. -/
def Accounts (reason : Prop) (P : α → Prop) : Except Fault α → Prop
  | .ok a => P a
  | .error fault => fault.cause.kind = .lexical → reason

namespace Accounts

variable {reason' : Prop} {P : α → Prop} {Q : β → Prop} {x : Except Fault α}

theorem bind {f : α → Except Fault β} (h : Accounts reason P x)
    (hf : ∀ a, P a → Accounts reason Q (f a)) : Accounts reason Q (x >>= f) := by
  cases x with
  | error fault => exact h
  | ok a => exact hf a h

theorem map {f : α → β} (h : Accounts reason P x) (hf : ∀ a, P a → Q (f a)) :
    Accounts reason Q (x.map f) := by
  cases x with
  | error fault => exact h
  | ok a => exact hf a h

theorem ite {c : Prop} [Decidable c] {y : Except Fault α} (hx : c → Accounts reason P x)
    (hy : ¬c → Accounts reason P y) : Accounts reason P (if c then x else y) := by
  split
  · exact hx ‹_›
  · exact hy ‹_›

theorem mono (h : Accounts reason P x) (hr : reason → reason') : Accounts reason' P x := by
  cases x with
  | error fault => exact fun lexical => hr (h lexical)
  | ok a => exact h

theorem self (h : Accounts reason P x) : Accounts reason (x = .ok ·) x := by
  cases x with
  | error fault => exact h
  | ok a => exact rfl

/-- Without a reason there is no fault about a delimiter. -/
theorem never (h : Accounts False P x) : ∀ fault, x = .error fault → fault.cause.kind ≠ .lexical := by
  rintro fault rfl
  exact h

end Accounts

/-- A region leads to one with a delimiter that has no partner. -/
def Broken (r : Region) : Prop := ∃ i, ReflTransGen Interpolation r i ∧ ¬ Delimited i

theorem Broken.outer {i : Region} (hi : Interpolation r i) : Broken i → Broken r := by
  rintro ⟨j, reached, bad⟩
  exact ⟨j, .head hi reached, bad⟩

/-- The tokens of a region are met in it. -/
theorem tokens_met : ∀ {fuel : Nat} {r : Region} {ts : List Lexeme}, tokens fuel r = .ok ts →
    ∀ t ∈ ts, Meets r t
  | 0, _, _, h => by
    cases h
    simp
  | fuel + 1, r, ts, h => by
    rw [tokens] at h
    dsimp only at h
    split at h
    · cases h
      simp
    · rename_i c rest text
      obtain ⟨⟨found, length⟩, first, h⟩ := results_of_bind h
      obtain ⟨others, behind, h⟩ := results_of_bind h
      cases h
      refine List.forall_mem_cons.2 ⟨.here text first, fun l hl => ?_⟩
      exact .later text first (tokens_met behind l hl)

/-! ## Strings -/

theorem escape_accounts (pos : Nat) (rest : List Char) :
    Accounts reason (fun _ => True) (escape pos rest) := by
  unfold escape
  repeat' split
  all_goals first | trivial | exact fun h => nomatch h

theorem unescape_accounts : ∀ (fuel pos : Nat) (cs : List Char),
    Accounts reason (fun _ => True) (unescape fuel pos cs)
  | 0, _, _ => trivial
  | fuel + 1, pos, cs => by
    unfold unescape
    split
    case h_1 => trivial
    case h_2 => trivial
    case h_3 rest hn =>
      exact (escape_accounts _ _).bind fun found _ =>
        (unescape_accounts _ _ _).bind fun _ _ => trivial
    case h_4 rest _ hn =>
      exact (unescape_accounts _ _ _).bind fun _ _ => trivial

theorem stringText_accounts (span : Span) (body : List Char) :
    Accounts reason (fun _ => True) (stringText span body) :=
  (unescape_accounts _ _ _).map fun _ _ => trivial

/-! ## The grammar -/

theorem HasToken.met {t : Lexeme} : HasToken r t → Meets r t :=
  fun ⟨_, cut, mem⟩ => tokens_met cut t mem

theorem ScansIn.opens {p : Nat} {rest : List Char} :
    ScansIn r p ('$' :: '{' :: rest) → OpensAt r p rest := by
  rintro ⟨⟨_, span⟩, body, token, rfl, scans⟩
  exact ⟨body, span, token.met, scans⟩

/-- A fault about a delimiter is that of a region that is reached. -/
theorem Faults.broken {fault : Fault} (h : Faults r fault) (lexical : fault.cause.kind = .lexical) :
    Broken r := by
  induction h with
  | @lexing r _ failed => exact ⟨r, .refl, fun good => good.strings failed lexical⟩
  | missing | mismatch | braced | number => cases lexical
  | @string r t body _ _ _ failed =>
    have accounts : Accounts (Broken r) _ _ := stringText_accounts t.span body
    rw [failed] at accounts
    exact accounts lexical
  | @escape r p rest _ _ failed =>
    have accounts : Accounts (Broken r) _ _ := escape_accounts p rest
    rw [failed] at accounts
    exact accounts lexical
  | @unclosed r _ _ _ here hc =>
    -- the region itself is to blame: the brace has no partner in the string
    refine ⟨r, .refl, fun good => ?_⟩
    obtain ⟨inside, after, closed⟩ := good.interpolations here.opens
    have closed := closed []
    rw [List.append_nil, hc] at closed
    cases closed
  | hole here hc _ ih =>
    -- what goes wrong inside of the interpolation is a matter of its region
    exact (ih lexical).outer (.hole here.opens hc)

end Grammar

/-- A delimiter without its partner that the parser reports is one of a region that it reaches. -/
theorem Expr.parse_accounts (r : Region) :
    Grammar.Accounts (Grammar.Broken r) (fun _ => True) (Expr.parse r) := by
  cases h : Expr.parse r with
  | error fault => exact (Expr.faults_of_parse h).broken
  | ok e => trivial

end LiveTemplate
