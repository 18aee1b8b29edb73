/-
Regions of a source text.
-/

namespace LiveTemplate

/-- The bytes from `start` up to and without `stop`. -/
structure Span where
  start : Nat
  stop : Nat
deriving Repr, DecidableEq, Inhabited

namespace Span

/-- The empty region at an offset. -/
def empty (offset : Nat) : Span := ⟨offset, offset⟩

/-- The least region that holds both. -/
def union (a b : Span) : Span := ⟨min a.start b.start, max a.stop b.stop⟩

end Span

end LiveTemplate
