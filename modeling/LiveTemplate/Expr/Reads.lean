/-
Which top-level fields of the state a resolved expression reads. An expression that takes the
state or the component as a whole reads anything.
-/
import LiveTemplate.Expr.Basic
import LiveTemplate.Text.Names

namespace LiveTemplate

/-- The fields that are read, and whether the whole state is. -/
structure Reads where
  fields : Names
  any : Bool
deriving Repr, DecidableEq

namespace Reads

def none : Reads := ⟨[], false⟩

/-- One field. -/
def field (name : String) : Reads := ⟨[name], false⟩

/-- The whole state. -/
def everything : Reads := ⟨[], true⟩

def union (a b : Reads) : Reads := ⟨a.fields.union b.fields, a.any || b.any⟩

end Reads

mutual

/-- What an expression reads of the state. -/
def Expr.reads : Expr → Reads
  | .root _ (.field n) => .field n
  | .root _ .state | .root _ .component | .self _ => .everything
  | .root .. | .literal .. | .name .. => .none
  | .member _ (.root _ .state) p _ => .field p
  | .member _ o _ _ => o.reads
  | .index _ (.root _ .state) (.literal _ (.text key)) _ => .field key
  | .index _ (.root _ .state) (.literal _ (.int i)) _ => .field (Decimal.intText i.toInt)
  | .index _ o i _ => o.reads.union i.reads
  | .template _ parts => readsParts parts
  | .call _ callee args => callee.reads.union (readsAll args)
  | .method _ _ args | .function _ _ args => readsAll args
  | .unary _ _ e => e.reads
  | .binary _ _ l r => l.reads.union r.reads
  | .conditional _ c t e => (c.reads.union t.reads).union e.reads
  | .array _ items => readsAll items
  | .object _ entries => readsEntries entries
  | .arrow _ _ body => body.reads

def readsAll : List Expr → Reads
  | [] => .none
  | e :: rest => e.reads.union (readsAll rest)

def readsEntries : List (String × Expr) → Reads
  | [] => .none
  | (_, e) :: rest => e.reads.union (readsEntries rest)

def readsParts : List TemplatePart → Reads
  | [] => .none
  | .text _ :: rest => readsParts rest
  | .hole e :: rest => e.reads.union (readsParts rest)

end

end LiveTemplate
