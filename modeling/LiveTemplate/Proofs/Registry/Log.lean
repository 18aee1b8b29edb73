/-
A registry against the log of all that was ever done to it. The log forgets nothing: an entry is
alive in it if it was issued and nothing behind that ended its life. Every run of operations gives
the answers that the log gives, and what the registry holds is what is alive in the log; where an
entry gave way, there were more than the limit allows and it was the oldest of them.
-/
import LiveTemplate.Proofs.Registry.History

namespace LiveTemplate.Registry

variable {α : Type}

/-! ## Operations -/

/-- What is asked of a registry. -/
inductive Operation (α : Type) where
  | register (value : α)
  | registerPersistent (value : α)
  | get (token : Token)
  | take (token : Token)
  | release (token : Token)
  | clear
  | setCapacity (capacity : Nat)
deriving Repr, DecidableEq

/-- What an operation gives back. -/
inductive Answer (α : Type) where
  | issued (token : Token)
  | value (value? : Option α)
  | known (known : Bool)
  | done
deriving Repr, DecidableEq

namespace Operation

def run : Operation α → StateM (Registry α) (Answer α)
  | .register value, r => ((r.register value).map .issued id)
  | .registerPersistent value, r => ((r.registerPersistent value).map .issued id)
  | .get token, r => (.value (r.get? token), r)
  | .take token, r => (r.take token).map .value id
  | .release token, r => (r.release token).map .known id
  | .clear, r => (.done, r.clear)
  | .setCapacity capacity, r => (.done, r.setCapacity capacity)

/-- Whether an operation issues a token. -/
def issues : Operation α → Bool
  | .register _ | .registerPersistent _ => true
  | _ => false

end Operation

/-- The token that an answer gives out. -/
def Answer.token? : Answer α → Option Token
  | .issued token => some token
  | _ => none

/-! ## Logs -/

/-- What happened to a registry at one time. -/
inductive Record (α : Type) where
  | resized (capacity : Nat)
  | issued (entry : Entry α)
  | taken (token : Token)
  | released (token : Token)
  | cleared
  | evicted (token : Token)

/-- The records of a registry, the first one first. -/
abbrev Log (α : Type) := List (Record α)

namespace Record

/-- Whether a record ends the life of the entry of a token. -/
def ends (token : Token) : Record α → Bool
  | taken t | released t | evicted t => token == t
  | cleared => true
  | resized _ | issued _ => false

/-- What becomes of the entries that were alive before a record. -/
def update (entries : List (Entry α)) : Record α → List (Entry α)
  | issued e => entries ++ [e]
  | record => entries.filter fun e => !record.ends e.token

def token? : Record α → Option Token
  | issued e => some e.token
  | _ => none

theorem mem_update {entries : List (Entry α)} {record : Record α} {e : Entry α} :
    e ∈ record.update entries ↔ record = .issued e ∨ e ∈ entries ∧ record.ends e.token = false := by
  cases record with
  | issued entry =>
    simp only [update, List.mem_append, List.mem_singleton, issued.injEq, ends, and_true]
    rw [or_comm, eq_comm]
  | _ => simp only [update, List.mem_filter, Bool.not_eq_true', reduceCtorEq, false_or]

end Record

namespace Log

/-- An entry is alive if it was issued and nothing behind that ended its life. -/
def Alive (log : Log α) (e : Entry α) : Prop :=
  ∃ before after, log = before ++ .issued e :: after ∧ ∀ record ∈ after, record.ends e.token = false

/-- The entries that are alive, in the order in which they were issued. -/
def alive (log : Log α) : List (Entry α) := log.foldl Record.update []

/-- The tokens that were issued, the first one first. -/
def issued (log : Log α) : List Token := log.filterMap Record.token?

/-- How many entries may be alive: the capacity that was asked for last, and at least one. -/
def limit (log : Log α) : Nat :=
  log.foldl (fun n record => match record with | .resized capacity => max capacity 1 | _ => n) 1

@[simp]
theorem alive_concat (log : Log α) (record : Record α) :
    alive (log ++ [record]) = record.update (alive log) := by
  simp [alive]

@[simp]
theorem issued_concat (log : Log α) (record : Record α) :
    issued (log ++ [record]) = issued log ++ record.token?.toList := by
  cases h : record.token? <;> simp [issued, h]

@[simp]
theorem limit_concat (log : Log α) (record : Record α) :
    limit (log ++ [record]) = match record with
      | .resized capacity => max capacity 1
      | _ => limit log := by
  simp [limit]

/-- A record of a log and one more is the last one, or it is a record of the log. -/
theorem concat_eq_iff {log before after : Log α} {record r : Record α} :
    log ++ [record] = before ++ r :: after ↔
      before = log ∧ r = record ∧ after = [] ∨
        ∃ later, after = later ++ [record] ∧ log = before ++ r :: later := by
  constructor
  · intro eq
    rcases List.eq_nil_or_concat after with rfl | ⟨later, last, rfl⟩
    · obtain ⟨rfl, same⟩ := List.append_inj' eq rfl
      exact .inl ⟨rfl, (List.cons.inj same).1.symm, rfl⟩
    · rw [List.concat_eq_append] at eq ⊢
      have split : log ++ [record] = (before ++ r :: later) ++ [last] := by simpa using eq
      obtain ⟨rfl, same⟩ := List.append_inj' split rfl
      exact .inr ⟨later, by rw [(List.cons.inj same).1], rfl⟩
  · rintro (⟨rfl, rfl, rfl⟩ | ⟨later, rfl, rfl⟩)
    · rfl
    · simp

theorem alive_concat_iff {log : Log α} {record : Record α} {e : Entry α} :
    Alive (log ++ [record]) e ↔ record = .issued e ∨ Alive log e ∧ record.ends e.token = false := by
  simp only [Alive, concat_eq_iff]
  constructor
  · rintro ⟨before, after, ⟨rfl, rfl, rfl⟩ | ⟨later, rfl, rfl⟩, lives⟩
    · exact .inl rfl
    · rw [List.forall_mem_append, List.forall_mem_singleton] at lives
      exact .inr ⟨⟨before, later, rfl, lives.1⟩, lives.2⟩
  · rintro (rfl | ⟨⟨before, later, rfl, lives⟩, still⟩)
    · exact ⟨log, [], .inl ⟨rfl, rfl, rfl⟩, by simp⟩
    · refine ⟨before, _, .inr ⟨later, rfl, rfl⟩, ?_⟩
      rw [List.forall_mem_append, List.forall_mem_singleton]
      exact ⟨lives, still⟩

theorem mem_alive {log : Log α} {e : Entry α} : e ∈ alive log ↔ Alive log e := by
  induction log using List.reverseRecOn with
  | nil => simp [alive, Alive]
  | append_singleton log record ih => rw [alive_concat, Record.mem_update, alive_concat_iff, ih]

/-! ## Giving way -/

/-- The oldest of the entries are evicted as long as there are more than the limit allows. -/
def evictions (limit : Nat) : List (Entry α) → List (Record α)
  | [] => []
  | oldest :: rest =>
    if limit ≤ rest.length then .evicted oldest.token :: evictions limit rest else []

/-- The log with the evictions that are due. -/
def settle (log : Log α) : Log α := log ++ evictions (limit log) (alive log)

/-- A token may be evicted after a log: more entries are alive than the limit allows, and its entry
is the oldest of them. -/
def Due (log : Log α) (token : Token) : Prop :=
  log.limit < log.alive.length ∧
    (∃ e, Alive log e ∧ e.token = token) ∧ ∀ e, Alive log e → token ≤ e.token

/-! ## Keeping the log -/

/-- The entry of a token, if it is alive. -/
def entry? (log : Log α) (token : Token) : Option (Entry α) :=
  (alive log).find? (·.token == token)

end Log

/-- What an operation is answered after a log, and the log with the records of the operation. -/
def Operation.enter (op : Operation α) : StateM (Log α) (Answer α) := fun log =>
  let next := log.issued.length + 1
  match op with
  | .register value => (.issued next, Log.settle (log ++ [.issued ⟨next, value, false⟩]))
  | .registerPersistent value => (.issued next, Log.settle (log ++ [.issued ⟨next, value, true⟩]))
  | .get token => (.value ((log.entry? token).map Entry.value), log)
  | .take token =>
    match log.entry? token with
    | some e => (.value (some e.value), if e.persistent then log else log ++ [.taken token])
    | none => (.value none, log)
  | .release token => (.known (log.entry? token).isSome, log ++ [.released token])
  | .clear => (.done, log ++ [.cleared])
  | .setCapacity capacity => (.done, Log.settle (log ++ [.resized capacity]))

/-! ## Evictions -/

namespace Log

/-- Evictions neither issue tokens nor change the limit. -/
theorem concat_evictions (n : Nat) (entries : List (Entry α)) (log : Log α) :
    issued (log ++ evictions n entries) = issued log ∧
      limit (log ++ evictions n entries) = limit log := by
  induction entries generalizing log with
  | nil => simp [evictions]
  | cons oldest rest ih =>
    rw [evictions]
    split
    · obtain ⟨hi, hl⟩ := ih (log ++ [.evicted oldest.token])
      rw [List.append_cons, hi, hl, issued_concat, limit_concat]
      exact ⟨List.append_nil _, rfl⟩
    · rw [List.append_nil]
      exact ⟨rfl, rfl⟩

theorem issued_settle (log : Log α) : issued (settle log) = issued log :=
  (concat_evictions _ _ log).1

theorem limit_settle (log : Log α) : limit (settle log) = limit log :=
  (concat_evictions _ _ log).2

/-- Tokens are issued in turn, entries are alive in the order of their tokens, and every eviction
was due. -/
structure Ordered (log : Log α) : Prop where
  issued : log.issued = List.range' 1 log.issued.length
  ascending : log.alive.Pairwise fun a b => a.token < b.token
  past : ∀ e ∈ log.alive, e.token ≤ log.issued.length
  due : ∀ before token after, log = before ++ .evicted token :: after → Due before token

namespace Ordered

variable {log : Log α}

/-- A record that issues nothing, and evicts only what is due. -/
theorem concat (h : Ordered log) {record : Record α} (plain : record.token? = none)
    (due : ∀ token, record = .evicted token → Due log token) : Ordered (log ++ [record]) := by
  have issued : Log.issued (log ++ [record]) = log.issued := by simp [plain]
  have fewer : (record.update log.alive).Sublist log.alive := by
    cases record with
    | issued e => cases plain
    | _ => exact List.filter_sublist
  constructor
  · rw [issued]
    exact h.issued
  · rw [alive_concat]
    exact h.ascending.sublist fewer
  · rw [alive_concat, issued]
    exact fun e he => h.past e (fewer.subset he)
  · intro before token after eq
    rcases concat_eq_iff.1 eq with ⟨rfl, same, -⟩ | ⟨later, -, earlier⟩
    · exact due token same.symm
    · exact h.due before token later earlier

/-- A new entry under the next token. -/
theorem issue (h : Ordered log) (value : α) (persistent : Bool) :
    Ordered (log ++ [.issued ⟨log.issued.length + 1, value, persistent⟩]) := by
  constructor
  · simp only [issued_concat, Record.token?, Option.toList_some, List.length_append,
      List.length_singleton, List.range'_concat, ← h.issued]
    rw [Nat.one_mul, Nat.add_comm]
  · rw [alive_concat]
    refine List.pairwise_append.2 ⟨h.ascending, List.pairwise_singleton _ _, fun a ha b hb => ?_⟩
    rw [List.mem_singleton.1 hb]
    exact Nat.lt_succ_of_le (h.past a ha)
  · intro e he
    rw [alive_concat, Record.mem_update] at he
    rw [issued_concat, Record.token?, Option.toList_some, List.length_append,
      List.length_singleton]
    rcases he with new | ⟨old, -⟩
    · cases new
      exact Nat.le_refl _
    · exact (h.past e old).trans (Nat.le_succ _)
  · intro before token after eq
    rcases concat_eq_iff.1 eq with ⟨-, same, -⟩ | ⟨later, -, earlier⟩
    · cases same
    · exact h.due before token later earlier

/-- Where too many entries are alive, the eviction of the oldest is due and leaves the others. -/
theorem evict (h : Ordered log) {oldest : Entry α} {rest : List (Entry α)}
    (eq : log.alive = oldest :: rest) (full : log.limit ≤ rest.length) :
    Ordered (log ++ [.evicted oldest.token]) ∧ alive (log ++ [.evicted oldest.token]) = rest := by
  have ascending := h.ascending
  rw [eq, List.pairwise_cons] at ascending
  constructor
  · refine h.concat rfl fun token same => ?_
    cases same
    refine ⟨?_, ⟨oldest, mem_alive.1 (eq ▸ List.mem_cons_self), rfl⟩, fun e he => ?_⟩
    · rw [eq]
      exact Nat.lt_succ_of_le full
    · rcases List.mem_cons.1 (eq ▸ mem_alive.2 he) with rfl | he
      · exact Nat.le_refl _
      · exact (ascending.1 e he).le
  · have others : ∀ e ∈ rest, (e.token == oldest.token) = false := fun e he =>
      beq_eq_false_iff_ne.2 (ascending.1 e he).ne'
    rw [alive_concat, eq, Record.update, List.filter_cons_of_neg (by simp [Record.ends]),
      List.filter_eq_self]
    · exact fun e he => congrArg Bool.not (others e he)
    · exact fun e => nofun

theorem evictions (h : Ordered log) {entries : List (Entry α)} (eq : log.alive = entries) :
    Ordered (log ++ evictions log.limit entries) ∧
      alive (log ++ Log.evictions log.limit entries) =
        entries.drop (entries.length - log.limit) := by
  induction entries generalizing log with
  | nil => exact ⟨by simpa [Log.evictions] using h, by simpa [Log.evictions] using eq⟩
  | cons oldest rest ih =>
    rw [Log.evictions]
    split
    case isTrue full =>
      obtain ⟨ordered, left⟩ := h.evict eq full
      have same : limit (log ++ [.evicted oldest.token]) = log.limit := limit_concat ..
      have := ih ordered left
      rw [same] at this
      rw [List.append_cons, List.length_cons, Nat.succ_sub full, List.drop_succ_cons]
      exact this
    case isFalse room =>
      rw [List.append_nil, Nat.sub_eq_zero_of_le (by simpa using room), List.drop_zero]
      exact ⟨h, eq⟩

end Ordered

end Log

/-! ## A registry and its log -/

open Log

/-- What a registry holds after what its log tells. -/
structure Follows (r : Registry α) (log : Log α) : Prop where
  entries : r.entries = log.alive
  next : r.next = log.issued.length + 1
  capacity : r.capacity = log.limit
  ordered : Ordered log

namespace Follows

variable {r : Registry α} {log : Log α}

/-- The entries that are too many give way. -/
theorem evict (h : r.Follows log) : r.evict.Follows log.settle ∧ r.evict.size ≤ r.evict.capacity := by
  obtain ⟨ordered, left⟩ := h.ordered.evictions rfl
  refine ⟨⟨?_, ?_, ?_, ordered⟩, ?_⟩
  · rw [settle, left, Registry.evict, h.entries, h.capacity]
  · rw [issued_settle]
    exact h.next
  · rw [limit_settle]
    exact h.capacity
  · simp only [size, Registry.evict, List.length_drop]
    omega

theorem insert (h : r.Follows log) (value : α) (persistent : Bool) :
    (r.insert value persistent).2.Follows
        (settle (log ++ [.issued ⟨log.issued.length + 1, value, persistent⟩])) ∧
      (r.insert value persistent).2.size ≤ (r.insert value persistent).2.capacity := by
  refine evict ⟨?_, ?_, ?_, h.ordered.issue value persistent⟩
  · rw [alive_concat, ← h.entries, ← h.next]
    rfl
  · simp [Record.token?, h.next]
  · rw [limit_concat]
    exact h.capacity

/-- A record that issues and evicts nothing, in the registry and in the log. -/
theorem record (h : r.Follows log) (record : Record α) (plain : record.token? = none)
    (stays : ∀ token, record ≠ .evicted token) :
    Follows { r with entries := record.update r.entries, capacity := limit (log ++ [record]) }
      (log ++ [record]) where
  entries := by rw [alive_concat, h.entries]
  next := by simp [plain, h.next]
  capacity := rfl
  ordered := h.ordered.concat plain fun token same => absurd same (stays token)

theorem setCapacity (h : r.Follows log) (capacity : Nat) :
    (r.setCapacity capacity).Follows (settle (log ++ [.resized capacity])) ∧
      (r.setCapacity capacity).size ≤ (r.setCapacity capacity).capacity := by
  have resized := h.record (.resized capacity) rfl fun _ => nofun
  rw [limit_concat] at resized
  simpa [Record.update, Record.ends, Registry.setCapacity] using resized.evict

theorem clear (h : r.Follows log) : r.clear.Follows (log ++ [.cleared]) := by
  have cleared := h.record .cleared rfl fun _ => nofun
  rw [limit_concat] at cleared
  simpa [Record.update, Record.ends, Registry.clear, h.capacity] using cleared

/-- The entry of a token goes with a record that ends the life of just this one. -/
theorem release (h : r.Follows log) {token : Token} {record : Record α}
    (ends : record = .taken token ∨ record = .released token) :
    (r.release token).2.Follows (log ++ [record]) := by
  have gone : record.update r.entries = (r.release token).2.entries := by
    rcases ends with rfl | rfl <;> rfl
  have recorded := h.record record (by rcases ends with rfl | rfl <;> rfl)
    (by rcases ends with rfl | rfl <;> nofun)
  have same : limit (log ++ [record]) = r.capacity := by
    rcases ends with rfl | rfl <;> rw [limit_concat, h.capacity]
  rwa [gone, same] at recorded

theorem find? (h : r.Follows log) (token : Token) : r.find? token = log.entry? token := by
  rw [Registry.find?, entry?, h.entries]

/-- The values under tokens are those of the entries that are alive. -/
theorem get?_eq_some (h : r.Follows log) {token : Token} {value : α} :
    r.get? token = some value ↔ ∃ persistent, Alive log ⟨token, value, persistent⟩ := by
  rw [get?, h.find?, entry?, Option.map_eq_some_iff]
  constructor
  · rintro ⟨e, found, rfl⟩
    obtain rfl : e.token = token := by simpa using List.find?_some found
    exact ⟨e.persistent, mem_alive.1 (List.mem_of_find?_eq_some found)⟩
  · rintro ⟨persistent, alive⟩
    have held := mem_alive.2 alive
    cases found : (Log.alive log).find? (·.token == token) with
    | none => simpa using List.find?_eq_none.1 found _ held
    | some e =>
      have tokens : (log.alive.map Entry.token).Nodup :=
        List.Pairwise.map _ (fun _ _ => Nat.ne_of_lt) h.ordered.ascending
      have same : e = ⟨token, value, persistent⟩ := List.inj_on_of_nodup_map tokens
        (List.mem_of_find?_eq_some found) held (by simpa using List.find?_some found)
      exact ⟨e, rfl, by rw [same]⟩

end Follows

theorem size_release_le (r : Registry α) (token : Token) : (r.release token).2.size ≤ r.size :=
  List.length_filter_le ..

/-- An operation gives the answer that the log gives, the registry goes along with the log, and it
stays within its capacity. -/
theorem run_follows {r : Registry α} {log : Log α} (h : r.Follows log)
    (room : r.size ≤ r.capacity) (op : Operation α) :
    (op.run r).1 = (op.enter log).1 ∧ (op.run r).2.Follows (op.enter log).2 ∧
      (op.run r).2.size ≤ (op.run r).2.capacity := by
  cases op with
  | register value => exact ⟨congrArg Answer.issued h.next, h.insert value false⟩
  | registerPersistent value => exact ⟨congrArg Answer.issued h.next, h.insert value true⟩
  | get token => exact ⟨by simp [Operation.run, Operation.enter, get?, h.find?], h, room⟩
  | take token =>
    simp only [Operation.run, Operation.enter, take, ← h.find?]
    rcases r.find? token with _ | e
    · exact ⟨rfl, h, room⟩
    · by_cases stays : e.persistent = true
      · simp only [if_pos stays]
        exact ⟨rfl, h, room⟩
      · simp only [if_neg stays]
        exact ⟨rfl, h.release (.inl rfl), (r.size_release_le token).trans room⟩
  | release token =>
    refine ⟨?_, h.release (.inr rfl), (r.size_release_le token).trans room⟩
    simp only [Operation.run, Operation.enter, Registry.release, Prod.map, h.find?]
  | clear => exact ⟨rfl, h.clear, Nat.zero_le _⟩
  | setCapacity capacity => exact ⟨rfl, h.setCapacity capacity⟩

/-- A run of operations gives the answers that the log gives, and leads to what the log tells. -/
theorem mapM_run_follows : ∀ (ops : List (Operation α)) {r : Registry α} {log : Log α},
    r.Follows log → r.size ≤ r.capacity →
      (ops.mapM Operation.run r).1 = (ops.mapM Operation.enter log).1 ∧
        (ops.mapM Operation.run r).2.Follows (ops.mapM Operation.enter log).2 ∧
          (ops.mapM Operation.run r).2.size ≤ (ops.mapM Operation.run r).2.capacity
  | [], _, _, h, room => ⟨rfl, h, room⟩
  | op :: ops, r, log, h, room => by
    obtain ⟨answer, h, room⟩ := run_follows h room op
    obtain ⟨answers, h⟩ := mapM_run_follows ops h room
    rw [List.mapM_cons, List.mapM_cons]
    refine ⟨?_, h⟩
    show (op.run r).1 :: _ = (op.enter log).1 :: _
    rw [answer]
    exact congrArg _ answers

/-! ## What is issued -/

/-- An operation that issues a token answers with it. -/
theorem issued_enter (op : Operation α) (log : Log α) :
    issued (op.enter log).2 = log.issued ++ (op.enter log).1.token?.toList ∧
      (op.enter log).1.token?.isSome = op.issues := by
  cases op with
  | take token =>
    simp only [Operation.enter]
    rcases log.entry? token with _ | e
    · simp [Answer.token?, Operation.issues]
    · by_cases stays : e.persistent = true <;>
        simp [stays, Record.token?, Answer.token?, Operation.issues]
  | _ => simp [Operation.enter, issued_settle, Record.token?, Answer.token?, Operation.issues]

theorem issued_mapM : ∀ (ops : List (Operation α)) (log : Log α),
    issued (ops.mapM Operation.enter log).2 =
        log.issued ++ (ops.mapM Operation.enter log).1.filterMap Answer.token? ∧
      ((ops.mapM Operation.enter log).1.filterMap Answer.token?).length = ops.countP Operation.issues
  | [], log => ⟨(List.append_nil _).symm, rfl⟩
  | op :: ops, log => by
    obtain ⟨issued, isSome⟩ := issued_enter op log
    obtain ⟨rest, length⟩ := issued_mapM ops (op.enter log).2
    rw [List.mapM_cons]
    show Log.issued (ops.mapM Operation.enter (op.enter log).2).2 =
        log.issued ++ (((op.enter log).1 :: (ops.mapM Operation.enter (op.enter log).2).1).filterMap
          Answer.token?) ∧ (((op.enter log).1 ::
            (ops.mapM Operation.enter (op.enter log).2).1).filterMap Answer.token?).length = _
    rw [rest, issued, List.countP_cons, ← isSome, ← length, List.filterMap_cons]
    rcases (op.enter log).1.token? with _ | token <;> simp

/-! ## From the beginning -/

theorem follows_withCapacity (capacity : Nat) :
    (withCapacity capacity : Registry α).Follows [.resized capacity] where
  entries := rfl
  next := rfl
  capacity := rfl
  ordered := {
    issued := rfl
    ascending := List.Pairwise.nil
    past := fun _ he => absurd he List.not_mem_nil
    due := fun before token after eq => by
      rcases List.append_eq_singleton_iff.1 eq.symm with ⟨-, h⟩ | ⟨-, h⟩ <;> cases h }

/-- Operations on a new registry refine the log of them: they give the answers that the log gives,
tokens are issued in ascending order and fit 64 bits, what is held is what is alive in the log, each
token with its value, it stays within the capacity that was asked for last, and only the oldest entry
is evicted, where there are too many. -/
theorem refines_log (capacity : Nat) (ops : List (Operation α))
    (few : ops.countP Operation.issues < 2 ^ 64) :
    let answers := (ops.mapM Operation.run (withCapacity capacity)).1
    let r := (ops.mapM Operation.run (withCapacity capacity)).2
    let log := (ops.mapM Operation.enter [.resized capacity]).2
    answers = (ops.mapM Operation.enter [.resized capacity]).1 ∧
      answers.filterMap Answer.token? = log.issued ∧
      (log.issued.Pairwise (· < ·) ∧ ∀ token ∈ log.issued, token < 2 ^ 64) ∧
      (∀ e, e ∈ r.entries ↔ log.Alive e) ∧
      (∀ token value, r.get? token = some value ↔
        ∃ persistent, log.Alive ⟨token, value, persistent⟩) ∧
      (r.capacity = log.limit ∧ r.size ≤ log.limit) ∧
      ∀ before token after, log = before ++ .evicted token :: after → Due before token := by
  intro answers r log
  have room : (withCapacity capacity : Registry α).size ≤ max capacity 1 := Nat.zero_le _
  obtain ⟨same, follows, room⟩ := mapM_run_follows ops (follows_withCapacity capacity) room
  obtain ⟨issued, length⟩ := issued_mapM ops [.resized (α := α) capacity]
  have all : answers.filterMap Answer.token? = log.issued := by
    rw [show answers = _ from same]
    exact issued.symm
  have inTurn : log.issued = List.range' 1 log.issued.length := follows.ordered.issued
  refine ⟨same, all, ⟨?_, fun token ht => ?_⟩, fun e => ?_, fun token value => follows.get?_eq_some,
    ⟨follows.capacity, follows.capacity ▸ room⟩, follows.ordered.due⟩
  · rw [inTurn]
    exact List.pairwise_lt_range'
  · have few' : log.issued.length < 2 ^ 64 := by
      rw [← all, show answers = _ from same, length]
      exact few
    rw [inTurn, List.mem_range'_1] at ht
    exact (Nat.lt_one_add_iff.1 ht.2).trans_lt few'
  · rw [follows.entries]
    exact mem_alive

theorem refines_log_session :
    let ops : List (Operation String) := [.register "a", .registerPersistent "b", .take 1,
      .register "c", .registerPersistent "d", .take 2, .setCapacity 1]
    let log := (ops.mapM Operation.enter [.resized 2]).2
    ops.countP Operation.issues < 2 ^ 64 ∧
      (ops.mapM Operation.run (withCapacity 2)).1 =
        [.issued 1, .issued 2, .value (some "a"), .issued 3, .issued 4, .value none, .done] ∧
      log.issued = [1, 2, 3, 4] ∧ log.Alive ⟨4, "d", true⟩ ∧
      (ops.mapM Operation.run (withCapacity 2)).2.size ≤ log.limit ∧
      ∀ before token after, log = before ++ .evicted token :: after → Due before token := by
  intro ops log
  have few : ops.countP Operation.issues < 2 ^ 64 := by decide
  obtain ⟨-, all, -, entries, -, ⟨-, room⟩, due⟩ := refines_log 2 ops few
  have answers : (ops.mapM Operation.run (withCapacity 2)).1 =
      [.issued 1, .issued 2, .value (some "a"), .issued 3, .issued 4, .value none, .done] := by decide
  rw [answers] at all
  have held : (ops.mapM Operation.run (withCapacity 2)).2.entries = [⟨4, "d", true⟩] := rfl
  rw [held] at entries
  exact ⟨few, answers, all.symm, (entries _).1 List.mem_cons_self, room, due⟩

end LiveTemplate.Registry
