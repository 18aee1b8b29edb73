/-
The variables in scope at every instruction. While a source is compiled, the builder has certain
loop variables in scope whenever it appends an instruction; they are recorded here, one list for
each instruction. An outline has its own account of them, read from the tree: the body of a loop
has the variables of the loop besides those around it. The two agree on every compiled source, and
every expression and handler mentions only variables that its instruction has in scope.
-/
import LiveTemplate.Proofs.Expr.Bound
import LiveTemplate.Proofs.Program.Soundness

namespace LiveTemplate

open Markup

/-! ## Recording -/

/-- The loop variables in scope where the instructions of tokens are appended, one list for each
instruction. A token changes the variables only after it has appended its instructions, and the
ends of the elements that are still open come last. -/
def Builder.loopVarsOf (knows : String → Bool) (source : List Char) :
    List Markup.Token → Builder → List (List String)
  | [], b => List.replicate b.elements.length b.loopVars
  | token :: rest, b =>
    match b.addToken knows source token with
    | .ok b' =>
      List.replicate (b'.instrs.size - b.instrs.size) b.loopVars ++ b'.loopVarsOf knows source rest
    | .error _ => []

/-- The loop variables in scope where the instructions of a source are appended. -/
def compiledVars (knows : String → Bool) (source : String) : List (List String) :=
  Builder.empty.loopVarsOf knows source.toList (Markup.tokens source.toList).1

/-! ## The account of an outline -/

mutual

/-- The variables in scope at the instructions of a part, where the given ones are around it. -/
def Item.vars (ns : List String) : Item → List (List String)
  | .text _ => [ns]
  | .element _ _ features children =>
    ns :: (List.replicate features.length ns ++ (Items.vars ns children ++ [ns]))
  | .block b => b.vars ns

def Items.vars (ns : List String) : List Item → List (List String)
  | [] => []
  | i :: rest => i.vars ns ++ Items.vars ns rest

def Block.vars (ns : List String) : Block → List (List String)
  | .emit .. => [ns]
  | .chain clauses => ns :: (clauses.vars ns ++ [ns])
  | .loop binding _ body =>
    ns :: ns :: (Items.vars (ns ++ binding.names) body
      ++ [ns ++ binding.names, ns ++ binding.names])

def Clauses.vars (ns : List String) : Clauses → List (List String)
  | .done => []
  | .otherwise body => Items.vars ns body
  | .clause _ _ body rest =>
    ns :: (Items.vars ns body ++ (List.replicate rest.exitRoom.pc ns ++ rest.vars ns))

end

/-- An expression mentions only the given variables. -/
def Expr.Within (ns : List String) (e : Expr) : Prop := ∀ n ∈ e.boundNames, n ∈ ns

def Feature.Within (ns : List String) : Feature → Prop
  | .dynamic _ e => e.Within ns
  | .listener _ handler => ∀ n ∈ handler.locals, n ∈ ns
  | _ => True

mutual

/-- The expressions and handlers of a part mention only variables that are in scope, where the
given ones are around it, and the bindings of loops fit. -/
def Item.Within (ns : List String) : Item → Prop
  | .text _ => True
  | .element _ _ features children => (∀ f ∈ features, f.Within ns) ∧ Items.Within ns children
  | .block b => b.Within ns

def Items.Within (ns : List String) : List Item → Prop
  | [] => True
  | i :: rest => i.Within ns ∧ Items.Within ns rest

def Block.Within (ns : List String) : Block → Prop
  | .emit e _ => e.Within ns
  | .chain clauses => clauses.Within ns
  | .loop binding collection body =>
    collection.Within ns ∧ binding.Fits ∧ Items.Within (ns ++ binding.names) body

def Clauses.Within (ns : List String) : Clauses → Prop
  | .done => True
  | .otherwise body => Items.Within ns body
  | .clause test _ body rest => test.Within ns ∧ Items.Within ns body ∧ rest.Within ns

end

theorem Items.vars_append (ns : List String) : ∀ a b : List Item,
    Items.vars ns (a ++ b) = Items.vars ns a ++ Items.vars ns b
  | [], _ => rfl
  | i :: rest, b => by
    rw [List.cons_append, Items.vars, Items.vars_append ns rest b, Items.vars, List.append_assoc]

theorem Items.vars_singleton (ns : List String) (i : Item) : Items.vars ns [i] = i.vars ns := by
  rw [Items.vars, Items.vars, List.append_nil]

theorem Items.within_append {ns : List String} : ∀ {a b : List Item},
    Items.Within ns a → Items.Within ns b → Items.Within ns (a ++ b)
  | [], _, _, hb => hb
  | _ :: _, _, ha, hb => ⟨ha.1, Items.within_append ha.2 hb⟩

theorem Features.room_pc : ∀ features : List Feature, (Features.room features).pc = features.length
  | [] => rfl
  | f :: rest => by
    have hf : f.room.pc = 1 := by cases f <;> rfl
    rw [Features.room, Place.add_pc, hf, Features.room_pc rest, List.length_cons, Nat.add_comm]

mutual

theorem Item.vars_length : ∀ (ns : List String) (i : Item), (i.vars ns).length = i.room.pc
  | _, .text _ => rfl
  | ns, .element _ _ features children => by
    simp only [Item.vars, Item.room, List.length_cons, List.length_append, List.length_replicate,
      List.length_nil, Items.vars_length ns children, Features.room_pc, Place.add_pc, Place.one_pc]
    omega
  | ns, .block b => by rw [Item.vars, Item.room, Block.vars_length ns b]

theorem Items.vars_length : ∀ (ns : List String) (items : List Item),
    (Items.vars ns items).length = (Items.room items).pc
  | _, [] => rfl
  | ns, i :: rest => by
    rw [Items.vars, Items.room, List.length_append, Item.vars_length ns i,
      Items.vars_length ns rest, Place.add_pc]

theorem Block.vars_length : ∀ (ns : List String) (b : Block), (b.vars ns).length = b.room.pc
  | _, .emit .. => rfl
  | ns, .chain clauses => by
    simp only [Block.vars, Block.room, List.length_cons, List.length_append, List.length_nil,
      Clauses.vars_length ns clauses, Place.add_pc, Place.one_pc, Place.acting_pc]
    omega
  | ns, .loop binding _ body => by
    simp only [Block.vars, Block.room, List.length_cons, List.length_append, List.length_nil,
      Items.vars_length (ns ++ binding.names) body, Place.add_pc, Place.one_pc, Place.acting_pc]
    omega

theorem Clauses.vars_length : ∀ (ns : List String) (clauses : Clauses),
    (clauses.vars ns).length = clauses.room.pc
  | _, .done => rfl
  | ns, .otherwise body => by rw [Clauses.vars, Clauses.room, Items.vars_length ns body]
  | ns, .clause _ _ body rest => by
    simp only [Clauses.vars, Clauses.room, List.length_cons, List.length_append,
      List.length_replicate, Items.vars_length ns body, Clauses.vars_length ns rest, Place.add_pc,
      Place.one_pc]
    omega

end

/-! ## The account of a draft -/

def PastClauses.vars (ns : List String) : List PastClause → List (List String)
  | [] => []
  | c :: rest => ns :: (Items.vars ns c.body ++ ns :: vars ns rest)

def PastClause.Within (ns : List String) (c : PastClause) : Prop :=
  c.test.Within ns ∧ Items.Within ns c.body

namespace Opening

def vars (ns : List String) : Opening → List (List String)
  | element _ _ features => ns :: List.replicate features.length ns
  | chain _ _ past current => ns :: (PastClauses.vars ns past ++ current.toList.map fun _ => ns)
  | loop .. => [ns, ns]

def Within (ns : List String) : Opening → Prop
  | element _ _ features => ∀ f ∈ features, f.Within ns
  | chain _ _ past current =>
    (∀ c ∈ past, c.Within ns) ∧ ∀ test ∈ current, Expr.Within ns test.1
  | loop _ _ binding collection => collection.Within ns ∧ binding.Fits

end Opening

namespace Levels

def vars : List Level → List (List String)
  | [] => []
  | l :: outer => vars outer ++ (Items.vars (names outer) l.before ++ l.opening.vars (names outer))

def Within : List Level → Prop
  | [] => True
  | l :: outer =>
    Within outer ∧ Items.Within (names outer) l.before ∧ l.opening.Within (names outer)

end Levels

namespace Draft

/-- The variables in scope at the instructions that were laid out so far. -/
def vars (d : Draft) : List (List String) := Levels.vars d.levels ++ Items.vars d.names d.items

def Within (d : Draft) : Prop := Levels.Within d.levels ∧ Items.Within d.names d.items

end Draft

theorem PastClauses.vars_append (ns : List String) (c : PastClause) : ∀ past : List PastClause,
    vars ns (past ++ [c]) = vars ns past ++ ns :: (Items.vars ns c.body ++ [ns])
  | [] => rfl
  | c' :: rest => by
    simp only [List.cons_append, vars, vars_append ns c rest, List.append_assoc]

/-- The clauses with a last one are what stands before its body, and the body. -/
theorem Clauses.vars_followedBy (ns : List String) (items : List Item)
    (current : Option (Expr × Bool)) : ∀ past : List PastClause,
    (PastClauses.followedBy (Opening.lastClause items current) past).vars ns =
      PastClauses.vars ns past ++ ((current.toList.map fun _ => ns) ++ Items.vars ns items)
  | [] => by
    rcases current with _ | ⟨test, negate⟩
    · rfl
    · simp [PastClauses.followedBy, Opening.lastClause, PastClauses.vars, Clauses.vars,
        Clauses.exitRoom, Clauses.isDone]
  | c :: rest => by
    have follows : (PastClauses.followedBy (Opening.lastClause items current) rest).exitRoom =
        .one := by
      rcases rest with _ | _
      · rcases current with _ | _ <;> rfl
      · rfl
    simp only [PastClauses.followedBy, Clauses.vars, PastClauses.vars, follows, Place.one_pc,
      Clauses.vars_followedBy ns items current rest, List.replicate_one, List.append_assoc,
      List.cons_append, List.nil_append]

theorem Clauses.within_followedBy {ns : List String} {items : List Item}
    {current : Option (Expr × Bool)} (hi : Items.Within ns items)
    (hc : ∀ test ∈ current, Expr.Within ns test.1) : ∀ {past : List PastClause},
    (∀ c ∈ past, c.Within ns) →
      (PastClauses.followedBy (Opening.lastClause items current) past).Within ns
  | [], _ => by
    rcases current with _ | ⟨test, negate⟩
    · exact hi
    · exact ⟨hc _ rfl, hi, trivial⟩
  | c :: rest, hp => by
    obtain ⟨first, others⟩ := List.forall_mem_cons.1 hp
    exact ⟨first.1, first.2, Clauses.within_followedBy hi hc others⟩

namespace Opening

/-- Closing a part only adds instructions at its end, where the variables of the part are still in
scope. -/
theorem vars_close (ns : List String) (items : List Item) : ∀ o : Opening, ∃ k,
    (o.close items).vars ns =
      o.vars ns ++ (Items.vars (ns ++ o.names) items ++ List.replicate k (ns ++ o.names))
  | element e key features => ⟨1, by
      simp only [close, Item.vars, vars, names, List.append_nil, List.replicate_one,
        List.cons_append]⟩
  | chain negated span past current => ⟨1, by
      simp only [close, Item.vars, Block.vars, vars, names, List.append_nil, List.replicate_one,
        List.cons_append, List.append_assoc, Clauses.vars_followedBy]⟩
  | loop isFor span binding collection => ⟨2, rfl⟩

theorem within_close {ns : List String} {items : List Item} : ∀ {o : Opening}, o.Within ns →
    Items.Within (ns ++ o.names) items → (o.close items).Within ns
  | element .., ho, hi => ⟨ho, List.append_nil ns ▸ hi⟩
  | chain .., ho, hi => Clauses.within_followedBy (List.append_nil ns ▸ hi) ho.2 ho.1
  | loop .., ho, hi => ⟨ho.1, ho.2, hi⟩

end Opening

theorem Draft.vars_length (d : Draft) : d.vars.length = d.here.pc := by
  have past_length (ns : List String) : ∀ past : List PastClause,
      (PastClauses.vars ns past).length = (PastClauses.room past).pc := by
    intro past
    induction past with
    | nil => rfl
    | cons c rest ih =>
      simp only [PastClauses.vars, PastClauses.room, List.length_cons, List.length_append,
        Items.vars_length, ih, Place.add_pc, Place.one_pc]
      omega
  have opening_length (ns : List String) (o : Opening) : (o.vars ns).length = o.room.pc := by
    cases o with
    | element e key features =>
      simp only [Opening.vars, Opening.room, List.length_cons, List.length_replicate,
        Features.room_pc, Place.add_pc, Place.one_pc]
      omega
    | chain negated span past current =>
      cases current <;>
        simp only [Opening.vars, Opening.room, List.length_cons, List.length_append, past_length,
          Place.add_pc, Place.acting_pc, Option.toList, List.map, List.length_nil, Option.isSome,
          Place.one_pc, Place.start_pc, if_true, Bool.false_eq_true, if_false] <;>
        omega
    | loop => rfl
  have levels_length : ∀ levels : List Level,
      (Levels.vars levels).length = (Levels.place levels).pc := by
    intro levels
    induction levels with
    | nil => rfl
    | cons l outer ih =>
      simp only [Levels.vars, Levels.place, List.length_append, ih, Items.vars_length,
        opening_length, Place.add_pc]
      omega
  rw [Draft.vars, Draft.here, List.length_append, levels_length, Items.vars_length, Place.add_pc]

/-! ## Growing drafts -/

/-- A draft grows by instructions that have the variables of the draft in scope, and keeps to the
variables that are in scope. -/
structure Draft.Grows (d d' : Draft) : Prop where
  vars : ∃ k, d'.vars = d.vars ++ List.replicate k d.names
  within : d.Within → d'.Within

namespace Draft

variable {d d' : Draft} {knows : String → Bool}

theorem grows_append {items : List Item} (k : Nat)
    (hv : Items.vars d.names items = List.replicate k d.names) (hw : Items.Within d.names items) :
    d.Grows (d.append items) where
  vars := ⟨k, by
    show Levels.vars d.levels ++ Items.vars d.names (d.items ++ items) = _
    rw [Items.vars_append, hv, ← List.append_assoc]
    rfl⟩
  within := fun h => ⟨h.1, Items.within_append h.2 hw⟩

theorem grows_enter {o : Opening} (k : Nat) (hv : o.vars d.names = List.replicate k d.names)
    (hw : o.Within d.names) : d.Grows (d.enter o) where
  vars := ⟨k, by
    show Levels.vars d.levels ++ (Items.vars d.names d.items ++ o.vars d.names) ++ [] = _
    rw [hv, List.append_nil, ← List.append_assoc]
    rfl⟩
  within := fun h => ⟨⟨h.1, h.2, hw⟩, trivial⟩

theorem grows_leave {l : Level} {outer : List Level} (hl : d.levels = l :: outer) :
    d.Grows (d.leave l outer) := by
  obtain ⟨levels, items⟩ := d
  subst hl
  obtain ⟨k, closed⟩ := l.opening.vars_close (Levels.names outer) items
  refine ⟨⟨k, ?_⟩, ?_⟩
  · show Levels.vars outer ++ Items.vars (Levels.names outer) (l.before ++ [l.opening.close items])
      = Levels.vars (l :: outer) ++ Items.vars _ items ++ _
    rw [Items.vars_append, Items.vars_singleton, closed, Levels.vars]
    simp only [List.append_assoc]
    rfl
  · rintro ⟨⟨outside, before, opened⟩, inside⟩
    exact ⟨outside, Items.within_append before ⟨Opening.within_close opened inside, trivial⟩⟩

theorem within_of_read {region : Region} {ns : List String} {e : Expr}
    (h : read? knows ns region = some e) : e.Within ns :=
  boundNames_of_read (ok_of_toOption h)

theorem within_of_feature {a : Attribute} {ns : List String} {f : Feature}
    (h : feature? knows ns a = some f) : f.Within ns := by
  unfold feature? at h
  cases hv : a.value with
  | plain value =>
    rw [hv] at h
    cases h
    trivial
  | flag =>
    rw [hv] at h
    cases h
    trivial
  | dynamic region =>
    rw [hv] at h
    cases he : a.event? with
    | some event =>
      rw [he] at h
      obtain ⟨handler, hh, rfl⟩ := Option.map_eq_some_iff.1 h
      exact locals_of_read (ok_of_toOption hh)
    | none =>
      rw [he] at h
      obtain ⟨e, hr, rfl⟩ := Option.map_eq_some_iff.1 h
      exact within_of_read hr

theorem within_of_features {ns : List String} : ∀ {attributes : List Attribute}
    {features : List Feature}, attributes.mapM (feature? knows ns) = some features →
      ∀ f ∈ features, f.Within ns
  | [], _, h, f, hf => by
    cases h
    cases hf
  | a :: rest, _, h, f, hf => by
    rw [List.mapM_cons] at h
    obtain ⟨first, h₁, h⟩ := Option.bind_eq_some_iff.1 h
    obtain ⟨others, h₂, h⟩ := Option.bind_eq_some_iff.1 h
    cases h
    rcases List.mem_cons.1 hf with rfl | hf
    · exact within_of_feature h₁
    · exact within_of_features h₂ f hf

theorem openTag_grows {tag : Tag} (h : d.openTag knows tag = some d') : d.Grows d' := by
  unfold openTag at h
  obtain ⟨features, hf, h⟩ := Option.bind_eq_some_iff.1 h
  have within := within_of_features hf
  split at h
  · cases h
    refine grows_append (features.length + 2) ?_ ⟨⟨within, trivial⟩, trivial⟩
    rw [Items.vars_singleton, Item.vars, Items.vars, List.nil_append, List.replicate_succ,
      List.replicate_succ']
  · cases h
    exact grows_enter (features.length + 1) rfl within

theorem closeTag_grows {name : String} (h : d.closeTag name = some d') : d.Grows d' := by
  unfold closeTag at h
  split at h
  case h_1 hl =>
    split at h
    · cases h
      exact grows_leave hl
    · cases h
  case h_2 => cases h

theorem emit_grows {region : Region} {mode : EmitMode} (h : d.emit knows region mode = some d') :
    d.Grows d' := by
  obtain ⟨e, he, h⟩ := Option.bind_eq_some_iff.1 h
  cases h
  exact grows_append 1 rfl ⟨within_of_read he, trivial⟩

theorem openChain_grows {negated : Bool} {test : Region} {span : Span}
    (h : d.openChain knows negated test span = some d') : d.Grows d' := by
  obtain ⟨e, he, h⟩ := Option.bind_eq_some_iff.1 h
  cases h
  refine grows_enter 2 rfl ⟨fun _ hc => absurd hc List.not_mem_nil, fun test ht => ?_⟩
  cases ht
  exact within_of_read he

theorem openLoop_grows {isFor : Bool} {collection : Region} {binding : LoopBinding} {span : Span}
    (hb : binding.Fits) (h : d.openLoop knows isFor collection binding span = some d') :
    d.Grows d' := by
  obtain ⟨e, he, h⟩ := Option.bind_eq_some_iff.1 h
  cases h
  exact grows_enter 2 rfl ⟨within_of_read he, hb⟩

theorem nextClause_grows {test : Option (Expr × Bool)}
    (ht : ∀ x ∈ test, Expr.Within d.names x.1) (h : d.nextClause test = some d') : d.Grows d' := by
  obtain ⟨levels, items⟩ := d
  unfold nextClause at h
  split at h
  case h_2 => cases h
  case h_1 before negated span past e negate outer hl =>
    cases h
    simp only at hl
    subst hl
    have same : Levels.names (⟨before, .chain negated span past (some (e, negate))⟩ :: outer) =
        Levels.names outer := List.append_nil _
    have names_eq : Draft.names ⟨⟨before, .chain negated span past (some (e, negate))⟩ :: outer,
        items⟩ = Levels.names outer := same
    rw [names_eq] at ht
    refine ⟨⟨1 + test.toList.length, ?_⟩, ?_⟩
    · have added : (test.toList.map fun _ => Levels.names outer) =
          List.replicate test.toList.length (Levels.names outer) := List.map_const' ..
      rw [Draft.vars, Draft.vars, names_eq]
      simp only [Levels.vars, Opening.vars, PastClauses.vars_append, added, Items.vars,
        List.append_nil, List.append_assoc, List.cons_append, List.replicate_add,
        List.replicate_one, List.nil_append, Option.toList_some, List.map_cons, List.map_nil]
    · rintro ⟨⟨outside, hb, past_within, current⟩, inside⟩
      refine ⟨⟨outside, hb, ?_, ht⟩, trivial⟩
      intro c hc
      rcases List.mem_append.1 hc with hc | hc
      · exact past_within c hc
      · cases List.mem_singleton.1 hc
        rw [names_eq] at inside
        exact ⟨current _ rfl, inside⟩

theorem closeBlock_grows {kind : BlockKind} (h : d.closeBlock kind = some d') : d.Grows d' := by
  obtain ⟨⟨l, outer⟩, hi, h⟩ := Option.bind_eq_some_iff.1 h
  cases h
  unfold innermost? at hi
  split at hi
  case h_1 l' outer' hl =>
    split at hi
    · cases hi
      exact grows_leave hl
    · cases hi
  case h_2 => cases hi

theorem addDirective_grows {span : Span} : ∀ {directive : Directive}, directive.Sound →
    d.addDirective knows span directive = some d' → d.Grows d'
  | .ifOpen _, _, h | .unlessOpen _, _, h => openChain_grows h
  | .elseIf test, _, h => by
    obtain ⟨e, he, h⟩ := Option.bind_eq_some_iff.1 h
    refine nextClause_grows (fun x hx => ?_) h
    cases hx
    exact within_of_read he
  | .elseOnly, _, h => nextClause_grows (fun _ hx => absurd hx (Option.not_mem_none _)) h
  | .eachOpen .., hs, h | .forOpen .., hs, h => openLoop_grows hs h
  | .ifClose, _, h | .unlessClose, _, h | .eachClose, _, h | .forClose, _, h => closeBlock_grows h
  | .html _, _, h | .json _, _, h | .expression _, _, h => emit_grows h

/-- Whatever token is added, the draft grows. -/
theorem addPiece_grows {source : List Char} {token : Markup.Token} {piece : Piece}
    (hp : Piece.ofToken source token = .ok piece) (h : d.addPiece knows piece = some d') :
    d.Grows d' := by
  cases piece with
  | text text =>
    cases h
    unfold textItems
    split
    · exact grows_append 0 rfl trivial
    · exact grows_append 1 rfl ⟨trivial, trivial⟩
  | declaration markup =>
    cases h
    exact grows_append 1 rfl ⟨trivial, trivial⟩
  | openTag tag => exact openTag_grows h
  | closeTag tag => exact closeTag_grows h
  | directive directive span =>
    refine addDirective_grows ?_ h
    unfold Piece.ofToken at hp
    split at hp
    · cases hp
    · cases hp
    · split at hp
      · cases hp
      · obtain ⟨tag, -, hp⟩ := results_of_bind hp
        cases hc : tag.isClosing <;> simp only [hc] at hp <;> cases hp
    · obtain ⟨parsed, hd, hp⟩ := results_of_bind hp
      cases hp
      exact Directive.parse_reads _ _ hd

theorem closeAll_grows : ∀ {levels : List Level} {items result : List Item},
    closeAll levels items = some result →
      Items.vars [] result = Levels.vars levels ++ (Items.vars (Levels.names levels) items
        ++ List.replicate (Levels.elements levels).length (Levels.names levels)) ∧
      (Levels.Within levels → Items.Within (Levels.names levels) items → Items.Within [] result)
  | [], items, _, h => by
    cases h
    exact ⟨(List.append_nil _).symm, fun _ hi => hi⟩
  | ⟨_, .chain ..⟩ :: _, _, _, h | ⟨_, .loop ..⟩ :: _, _, _, h => nomatch h
  | ⟨before, .element e key features⟩ :: outer, items, result, h => by
    rw [closeAll] at h
    obtain ⟨hv, hw⟩ := closeAll_grows h
    have same : Levels.names (⟨before, .element e key features⟩ :: outer) = Levels.names outer :=
      List.append_nil _
    rw [same]
    refine ⟨?_, ?_⟩
    · rw [hv, Items.vars_append, Items.vars_singleton, Levels.elements_cons, Levels.vars]
      simp only [Opening.close, Item.vars, Opening.vars, Opening.element?, Option.toList_some,
        List.cons_append, List.nil_append, List.length_cons, List.replicate_succ, List.append_assoc]
    · rintro ⟨outside, hb, hf⟩ hi
      exact hw outside (Items.within_append hb ⟨⟨hf, hi⟩, trivial⟩)

end Draft

/-! ## Programs -/

namespace Builder

/-- What was recorded so far and is recorded from here on is what the finished draft has. -/
theorem loopVarsOf_eq {knows : String → Bool} {source : List Char} {b' : Builder} :
    ∀ {tokens : List Markup.Token} {b : Builder} {d : Draft}, b.Holds d → d.Within →
      tokens.foldlM (addToken knows source) b = .ok b' →
      ∃ d', b'.Holds d' ∧ d'.Within ∧
        d.vars ++ b.loopVarsOf knows source tokens =
          d'.vars ++ List.replicate b'.elements.length b'.loopVars
  | [], b, d, holds, within, h => by
    cases h
    exact ⟨d, holds, within, rfl⟩
  | token :: rest, b, d, holds, within, h => by
    rw [List.foldlM_cons] at h
    obtain ⟨b₁, added, h⟩ := results_of_bind h
    simp only [loopVarsOf, added]
    rw [addToken_eq] at added
    obtain ⟨piece, read, added⟩ := results_of_bind added
    obtain ⟨d₁, hd, holds₁⟩ := (addPiece_refines knows b d piece holds).ok added
    have grows := Draft.addPiece_grows read hd
    obtain ⟨k, vars_eq⟩ := grows.vars
    -- The draft has a list for each instruction, so it grows by as many as the builder appends.
    have size : b₁.instrs.size - b.instrs.size = k := by
      have lengths := congrArg List.length vars_eq
      rw [List.length_append, List.length_replicate, Draft.vars_length, Draft.vars_length,
        ← holds.place_eq, ← holds₁.place_eq] at lengths
      simp only [place] at lengths
      omega
    obtain ⟨d', holds', within', others⟩ := loopVarsOf_eq holds₁ (grows.within within) h
    refine ⟨d', holds', within', ?_⟩
    rw [size, holds.loopVars, ← List.append_assoc, ← vars_eq]
    exact others

end Builder

/-- The variables that the builder has in scope at the instructions of a source are those that its
outline has there, and the outline keeps to them. -/
theorem compiledVars_eq {knows : String → Bool} {source : String} {program : Program}
    (h : (compile knows source).program = .ok program) :
    ∃ items, program.LaidOut items ∧ Items.Within [] items ∧
      compiledVars knows source = Items.vars [] items := by
  rw [compile_program] at h
  obtain ⟨b, folded, h⟩ := results_of_bind h
  obtain ⟨d, holds, within, recorded⟩ :=
    Builder.loopVarsOf_eq Builder.empty_holds ⟨trivial, trivial⟩ folded
  split at h
  · cases h
  · obtain ⟨items, finished, laidOut⟩ := holds.finish_refines.ok h
    obtain ⟨vars_eq, keeps⟩ := Draft.closeAll_grows finished
    refine ⟨items, laidOut, keeps within.1 within.2, ?_⟩
    rw [vars_eq, ← holds.elements, ← List.append_assoc]
    rw [holds.loopVars] at recorded
    exact recorded

end LiveTemplate
