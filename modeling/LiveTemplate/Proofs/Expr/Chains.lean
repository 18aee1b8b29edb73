/-
Optional chaining. A chain is an object with links behind it: accesses of members, accesses by index,
calls of members. An optional link on null ends the whole chain: nothing behind it is evaluated, so the
state is the one that the object left. On any other value an optional link is as good as a plain one.
-/
import LiveTemplate.Expr.Eval
import LiveTemplate.Proofs.Computation

namespace LiveTemplate

/-- What may stand behind an object in a chain. -/
inductive Link where
  | member (span : Span) (property : String) (optional : Bool)
  | index (span : Span) (index : Expr) (optional : Bool)
  /-- A call of a member, which is optional if the access of the member is. -/
  | call (span access : Span) (property : String) (optional : Bool) (args : List Expr)

namespace Link

/-- The expression that a link makes of an object. -/
def on (o : Expr) : Link → Expr
  | member s p optional => .member s o p optional
  | index s i optional => .index s o i optional
  | call s t p optional args => .call s (.member t o p optional) args

def isOptional : Link → Bool
  | member _ _ optional | index _ _ optional | call _ _ _ optional _ => optional

/-- The link without the mark that makes it optional. -/
def plain : Link → Link
  | member s p _ => member s p false
  | index s i _ => index s i false
  | call s t p _ args => call s t p false args

end Link

/-- An object with links behind it. -/
def Expr.linked (o : Expr) (links : List Link) : Expr := links.foldl Link.on o

variable {env : Env} {s s' : State} {o o' : Expr}

/-! ## One link -/

namespace Link

/-- A link goes on from what the object gives. -/
theorem chain_congr (l : Link) (h : o.chain env s = o'.chain env s) :
    (l.on o).chain env s = (l.on o').chain env s := by
  cases l <;> simp only [on, Expr.chain, stateful_bind, h]

/-- A chain that has ended stays ended. -/
theorem chain_ended (l : Link) (h : o.chain env s = (.ok none, s')) :
    (l.on o).chain env s = (.ok none, s') := by
  cases l <;> (unfold on Expr.chain; exact stateful_bind_ok h _)

/-- An optional link on null ends the chain. -/
theorem chain_null {l : Link} (hl : l.isOptional = true) (h : o.chain env s = (.ok (some .null), s')) :
    (l.on o).chain env s = (.ok none, s') := by
  cases l <;>
    · obtain rfl : _ = true := hl
      unfold on Expr.chain
      exact stateful_bind_ok h _

/-- On a value other than null it does not matter whether a link is optional. -/
theorem chain_plain (l : Link) {v : Value} (hv : v.isNull = false)
    (h : o.chain env s = (.ok (some v), s')) : (l.on o).chain env s = (l.plain.on o).chain env s := by
  cases l <;>
    · unfold on plain Expr.chain
      rw [stateful_bind_ok h, stateful_bind_ok h]
      simp only [hv, Bool.and_false]

end Link

/-! ## Chains -/

namespace Expr

theorem chain_linked_congr (h : o.chain env s = o'.chain env s) (links : List Link) :
    (o.linked links).chain env s = (o'.linked links).chain env s := by
  induction links generalizing o o' with
  | nil => exact h
  | cons l links ih => exact ih (l.chain_congr h)

theorem chain_linked_ended (h : o.chain env s = (.ok none, s')) (links : List Link) :
    (o.linked links).chain env s = (.ok none, s') := by
  induction links generalizing o with
  | nil => exact h
  | cons l links ih => exact ih (l.chain_ended h)

/-- A value is what a chain gives, or null if the chain has ended. -/
theorem chain_of_eval {v : Value} (h : o.eval env s = (.ok v, s')) :
    o.chain env s = (.ok (some v), s') ∨ v = .null ∧ o.chain env s = (.ok none, s') := by
  obtain ⟨found, t, hc, hv⟩ := stateful_results_of_bind h
  cases hv
  rcases found with _ | v
  · right
    exact ⟨rfl, hc⟩
  · left
    exact hc

theorem eval_congr (h : o.chain env s = o'.chain env s) : o.eval env s = o'.eval env s := by
  unfold eval
  rw [stateful_bind, stateful_bind, h]

theorem eval_ended (h : o.chain env s = (.ok none, s')) : o.eval env s = (.ok .null, s') := by
  unfold eval
  rw [stateful_bind_ok h]
  rfl

/-- Optional links. Where the object gives null, an optional link and all that stands behind it give
null, and the state stays as the object left it: no later index or argument is evaluated. Where the
object gives anything else, the mark of the optional link makes no difference. -/
theorem eval_optional_link {l : Link} (hl : l.isOptional = true) (links : List Link) {v : Value}
    (h : o.eval env s = (.ok v, s')) :
    (v = .null → ((l.on o).linked links).eval env s = (.ok .null, s')) ∧
      (v ≠ .null → ((l.on o).linked links).eval env s = ((l.plain.on o).linked links).eval env s) := by
  constructor
  · rintro rfl
    have ended : (l.on o).chain env s = (.ok none, s') := by
      rcases chain_of_eval h with some | ⟨-, none⟩
      · exact l.chain_null hl some
      · exact l.chain_ended none
    exact eval_ended (chain_linked_ended ended links)
  · intro hv
    have some : o.chain env s = (.ok (some v), s') := by
      rcases chain_of_eval h with some | ⟨null, -⟩
      · exact some
      · exact absurd null hv
    have notNull : v.isNull = false := by
      cases v
      case null => exact absurd rfl hv
      all_goals rfl
    exact eval_congr (chain_linked_congr (l.chain_plain notNull some) links)

/-- In `take("a")?.user[take("b")].trim(take("c"))` only the first call writes, where `take` writes its
argument and gives null. -/
theorem eval_optional_link_first :
    let take : Method := fun args => do
      State.set "taken" (argument args 0)
      return .null
    let env : Env :=
      ⟨"", fun _ => none, .null, fun name => if name = "take" then some take else none, []⟩
    let call (text : String) := Expr.method default "take" [.literal default (.text text)]
    let first : Link := .member default "user" true
    let others : List Link :=
      [.index default (call "b") false, .call default default "trim" false [call "c"]]
    ∃ s', (call "a").eval env ⟨0, [], [], ⟨1⟩⟩ = (.ok .null, s') ∧
      s'.get? "taken" = some (.text "a") ∧
      ((first.on (call "a")).linked others).eval env ⟨0, [], [], ⟨1⟩⟩ = (.ok .null, s') := by
  intro take env call first others
  have object : (call "a").eval env ⟨0, [], [], ⟨1⟩⟩ =
      (.ok .null, ⟨1, [("taken", .text "a")], ["taken"], ⟨2⟩⟩) := by rfl
  exact ⟨_, object, by rfl, (eval_optional_link rfl others object).1 rfl⟩

end Expr

end LiveTemplate
