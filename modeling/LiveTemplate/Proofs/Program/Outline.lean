/-
Templates as trees. An outline holds what a program says with its elements, blocks and clauses
nested in one another instead of laid out one after the other. Its code is the list of instructions
it is laid out as: every part of an outline takes a number of instructions and a number of
actions, so the place of a part is known from the place of what stands before it, and with it the
targets of all jumps.
-/
import LiveTemplate.Expr.Reads
import LiveTemplate.Program.Basic
import Mathlib.Tactic

namespace LiveTemplate

/-! ## Places -/

/-- A place in a program, or the room that a part takes: instructions and actions. -/
@[ext]
structure Place where
  pc : Nat
  action : ActionId
deriving Repr, DecidableEq

namespace Place

/-- The start of a program. -/
def start : Place := ⟨0, 0⟩

instance : Add Place := ⟨fun a b => ⟨a.pc + b.pc, a.action + b.action⟩⟩

@[simp]
theorem add_pc (a b : Place) : (a + b).pc = a.pc + b.pc := rfl

@[simp]
theorem add_action (a b : Place) : (a + b).action = a.action + b.action := rfl

theorem add_assoc (a b c : Place) : a + b + c = a + (b + c) :=
  Place.ext (Nat.add_assoc ..) (Nat.add_assoc ..)

@[simp]
theorem add_start (a : Place) : a + start = a := rfl

@[simp]
theorem start_add (a : Place) : start + a = a := Place.ext (Nat.zero_add _) (Nat.zero_add _)

end Place

/-! ## Outlines -/

/-- What an element has besides its children: attributes and listeners. -/
inductive Feature where
  | plain (name value : String)
  | flag (name : String)
  | dynamic (name : String) (expr : Expr)
  | listener (event : String) (handler : HandlerSource)

mutual

/-- A part of a template. -/
inductive Item where
  | text (text : String)
  | element (tag : String) (key : Option String) (features : List Feature) (children : List Item)
  | block (block : Block)

/-- A part that becomes a block of the tree and can be run again alone. -/
inductive Block where
  | emit (expr : Expr) (mode : EmitMode)
  | chain (clauses : Clauses)
  | loop (binding : LoopBinding) (collection : Expr) (body : List Item)

/-- The clauses of a conditional, which may end with one that has no test. -/
inductive Clauses where
  | done
  | otherwise (body : List Item)
  | clause (test : Expr) (negate : Bool) (body : List Item) (rest : Clauses)

end

/-! ## Room -/

/-- The room of one instruction. -/
def Place.one : Place := ⟨1, 0⟩

/-- The room of an instruction that is an action. -/
def Place.acting : Place := ⟨1, 1⟩

@[simp]
theorem Place.one_pc : Place.one.pc = 1 := rfl

@[simp]
theorem Place.one_action : Place.one.action = 0 := rfl

@[simp]
theorem Place.acting_pc : Place.acting.pc = 1 := rfl

@[simp]
theorem Place.acting_action : Place.acting.action = 1 := rfl

@[simp]
theorem Place.start_pc : Place.start.pc = 0 := rfl

@[simp]
theorem Place.start_action : Place.start.action = 0 := rfl

def Feature.room : Feature → Place
  | dynamic .. => .acting
  | _ => .one

def Features.room : List Feature → Place
  | [] => .start
  | f :: rest => f.room + Features.room rest

/-- Whether nothing follows a clause. -/
def Clauses.isDone : Clauses → Bool
  | done => true
  | _ => false

/-- The room of the jump that leads from the end of a clause past the clauses that follow. -/
def Clauses.exitRoom (following : Clauses) : Place :=
  if following.isDone then .start else .one

mutual

/-- The instructions and actions that a part takes. -/
def Item.room : Item → Place
  | .text _ => .one
  | .element _ _ features children =>
    .one + (Features.room features + (Items.room children + .one))
  | .block b => b.room

def Items.room : List Item → Place
  | [] => .start
  | i :: rest => i.room + Items.room rest

def Block.room : Block → Place
  | .emit .. => .acting
  | .chain clauses => .acting + (clauses.room + .one)
  | .loop _ _ body => .acting + (.one + (Items.room body + (.one + .one)))

def Clauses.room : Clauses → Place
  | .done => .start
  | .otherwise body => Items.room body
  | .clause _ _ body rest => .one + (Items.room body + (rest.exitRoom + rest.room))

end

/-! ## Code -/

def Feature.instr (p : Place) : Feature → Instr
  | plain name value => .setAttribute name value
  | flag name => .setFlag name
  | dynamic name e => .setAttributeExpr name e p.action
  | listener event handler => .addListener event handler

def Features.code (p : Place) : List Feature → List Instr
  | [] => []
  | f :: rest => f.instr p :: Features.code (p + f.room) rest

/-- The jump from the end of a clause to the end of its conditional, if anything follows. -/
def Clauses.exit (following : Clauses) (stop : Nat) : List Instr :=
  if following.isDone then [] else [.jump stop]

/-- Where what follows a clause begins. -/
def Clauses.next (p : Place) (body : List Item) (following : Clauses) : Place :=
  p + (.one + (Items.room body + following.exitRoom))

/-- Where the block at a place ends. -/
def Block.stop (p : Place) : Block → Nat
  | .emit .. => p.pc
  | .chain clauses => (p + (.acting + clauses.room)).pc
  | .loop _ _ body => (p + (.acting + (.one + (Items.room body + .one)))).pc

mutual

/-- The instructions of a part at a place. -/
def Item.code (p : Place) : Item → List Instr
  | .text s => [.createText s]
  | .element tag key features children =>
    .createElement tag key :: (Features.code (p + .one) features
      ++ (Items.code (p + (.one + Features.room features)) children ++ [.appendChild]))
  | .block b => b.code p

def Items.code (p : Place) : List Item → List Instr
  | [] => []
  | i :: rest => i.code p ++ Items.code (p + i.room) rest

def Block.code (p : Place) : Block → List Instr
  | .emit e mode => [.emit e mode p.action]
  | .chain clauses =>
    .openConditional p.action ((Block.chain clauses).stop p)
      :: (clauses.code (p + .acting) ((Block.chain clauses).stop p) ++ [.closeConditional])
  | .loop binding collection body =>
    .openLoop p.action binding collection ((Block.loop binding collection body).stop p)
      :: .iterate ((Block.loop binding collection body).stop p)
      :: (Items.code (p + (.acting + .one)) body ++ [.jump (p.pc + 1), .closeLoop])

/-- The instructions of the clauses of a conditional that ends at `stop`. -/
def Clauses.code (p : Place) (stop : Nat) : Clauses → List Instr
  | .done => []
  | .otherwise body => Items.code p body
  | .clause test negate body rest =>
    .branch test negate (Clauses.next p body rest).pc
      :: (Items.code (p + .one) body ++ (rest.exit stop ++ rest.code (Clauses.next p body rest) stop))

end

/-! ## Reads -/

/-- What an action reads. -/
def Action.reads (a : Action) : Reads := ⟨a.fields, a.any⟩

def Feature.reads : Feature → List Reads
  | dynamic _ e => [e.reads]
  | _ => []

/-- The tests of the clauses, in order. -/
def Clauses.tests : Clauses → List Expr
  | done | otherwise _ => []
  | clause test _ _ rest => test :: rest.tests

/-- What the tests of a conditional read together. -/
def testReads : List Expr → Reads
  | [] => .none
  | e :: rest => rest.foldl (fun reads e => reads.union e.reads) e.reads

mutual

/-- What the actions of a part read, in the order of their numbers. -/
def Item.reads : Item → List Reads
  | .text _ => []
  | .element _ _ features children => features.flatMap Feature.reads ++ Items.reads children
  | .block b => b.reads

def Items.reads : List Item → List Reads
  | [] => []
  | i :: rest => i.reads ++ Items.reads rest

def Block.reads : Block → List Reads
  | .emit e _ => [e.reads]
  | .chain clauses => testReads clauses.tests :: clauses.bodyReads
  | .loop _ collection body => collection.reads :: Items.reads body

def Clauses.bodyReads : Clauses → List Reads
  | .done => []
  | .otherwise body => Items.reads body
  | .clause _ _ body rest => Items.reads body ++ rest.bodyReads

end

/-! ## Lengths -/

theorem Features.code_length : ∀ (p : Place) (features : List Feature),
    (Features.code p features).length = (Features.room features).pc
  | _, [] => rfl
  | p, f :: rest => by
    have hf : f.room.pc = 1 := by cases f <;> rfl
    rw [Features.code, List.length_cons, Features.code_length, Features.room, Place.add_pc, hf]
    omega

theorem Clauses.exit_length (following : Clauses) (stop : Nat) :
    (following.exit stop).length = following.exitRoom.pc := by
  unfold exit exitRoom
  split <;> rfl

mutual

theorem Item.code_length : ∀ (p : Place) (i : Item), (i.code p).length = i.room.pc
  | _, .text _ => rfl
  | p, .element _ _ features children => by
    simp only [Item.code, Item.room, List.length_cons, List.length_append, List.length_nil,
      Features.code_length, Items.code_length, Place.add_pc, Place.one_pc]
    omega
  | p, .block b => by rw [Item.code, Item.room, Block.code_length]

theorem Items.code_length : ∀ (p : Place) (items : List Item),
    (Items.code p items).length = (Items.room items).pc
  | _, [] => rfl
  | p, i :: rest => by
    rw [Items.code, Items.room, List.length_append, Item.code_length, Items.code_length,
      Place.add_pc]

theorem Block.code_length : ∀ (p : Place) (b : Block), (b.code p).length = b.room.pc
  | _, .emit .. => rfl
  | p, .chain clauses => by
    simp only [Block.code, Block.room, List.length_cons, List.length_append, List.length_nil,
      Clauses.code_length, Place.add_pc, Place.one_pc, Place.acting_pc]
    omega
  | p, .loop _ _ body => by
    simp only [Block.code, Block.room, List.length_cons, List.length_append, List.length_nil,
      Items.code_length, Place.add_pc, Place.one_pc, Place.acting_pc]
    omega

theorem Clauses.code_length : ∀ (p : Place) (stop : Nat) (clauses : Clauses),
    (clauses.code p stop).length = clauses.room.pc
  | _, _, .done => rfl
  | p, _, .otherwise body => by rw [Clauses.code, Clauses.room, Items.code_length]
  | p, stop, .clause _ _ body rest => by
    simp only [Clauses.code, Clauses.room, List.length_cons, List.length_append,
      Items.code_length, Clauses.exit_length, Clauses.code_length, Place.add_pc, Place.one_pc]
    omega

end

theorem Block.stop_succ (p : Place) : ∀ b : Block, b.stop p + 1 = (p + b.room).pc
  | .emit .. => rfl
  | .chain _ | .loop .. => by
    simp only [Block.stop, Block.room, Place.add_pc, Place.one_pc]
    omega

theorem Block.le_stop (p : Place) : ∀ b : Block, p.pc ≤ b.stop p
  | .emit .. => Nat.le_refl _
  | .chain _ | .loop .. => Nat.le_add_right _ _

theorem Features.reads_length : ∀ features : List Feature,
    (features.flatMap Feature.reads).length = (Features.room features).action
  | [] => rfl
  | f :: rest => by
    have hf : f.reads.length = f.room.action := by cases f <;> rfl
    rw [List.flatMap_cons, List.length_append, Features.reads_length, Features.room,
      Place.add_action, hf]

theorem Clauses.exitRoom_action (following : Clauses) : following.exitRoom.action = 0 := by
  unfold exitRoom
  split <;> rfl

mutual

theorem Item.reads_length : ∀ i : Item, i.reads.length = i.room.action
  | .text _ => rfl
  | .element _ _ features children => by
    simp only [Item.reads, Item.room, List.length_append, Features.reads_length,
      Items.reads_length, Place.add_action, Place.one_action]
    omega
  | .block b => by rw [Item.reads, Item.room, Block.reads_length]

theorem Items.reads_length : ∀ items : List Item,
    (Items.reads items).length = (Items.room items).action
  | [] => rfl
  | i :: rest => by
    rw [Items.reads, Items.room, List.length_append, Item.reads_length, Items.reads_length,
      Place.add_action]

theorem Block.reads_length : ∀ b : Block, b.reads.length = b.room.action
  | .emit .. => rfl
  | .chain clauses => by
    simp only [Block.reads, Block.room, List.length_cons, Clauses.bodyReads_length,
      Place.add_action, Place.one_action, Place.acting_action]
    omega
  | .loop _ _ body => by
    simp only [Block.reads, Block.room, List.length_cons, Items.reads_length,
      Place.add_action, Place.one_action, Place.acting_action]
    omega

theorem Clauses.bodyReads_length : ∀ clauses : Clauses,
    clauses.bodyReads.length = clauses.room.action
  | .done => rfl
  | .otherwise body => by rw [Clauses.bodyReads, Clauses.room, Items.reads_length]
  | .clause _ _ body rest => by
    simp only [Clauses.bodyReads, Clauses.room, List.length_append, Items.reads_length,
      Clauses.bodyReads_length, Clauses.exitRoom_action, Place.add_action, Place.one_action]
    omega

end

/-! ## Parts one after the other -/

namespace Items

theorem code_append : ∀ (p : Place) (a b : List Item),
    Items.code p (a ++ b) = Items.code p a ++ Items.code (p + Items.room a) b
  | p, [], b => by rw [List.nil_append, Items.code, Items.room, Place.add_start, List.nil_append]
  | p, i :: rest, b => by
    rw [List.cons_append, Items.code, code_append (p + i.room) rest b, Items.code, Items.room,
      List.append_assoc, Place.add_assoc]

theorem reads_append : ∀ a b : List Item, Items.reads (a ++ b) = Items.reads a ++ Items.reads b
  | [], _ => rfl
  | i :: rest, b => by
    rw [List.cons_append, Items.reads, reads_append rest b, Items.reads, List.append_assoc]

theorem code_singleton (p : Place) (i : Item) : Items.code p [i] = i.code p := by
  rw [Items.code, Items.code, List.append_nil]

theorem reads_singleton (i : Item) : Items.reads [i] = i.reads := by
  rw [Items.reads, Items.reads, List.append_nil]

end Items

end LiveTemplate
