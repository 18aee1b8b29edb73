/-
Finite sets of names, and tables by name, kept as lists without repetition in ascending order.
-/

namespace LiveTemplate

/-- A set of names in ascending order. -/
abbrev Names := List String

namespace Names

/-- Adds a name to a set. -/
def insert (name : String) : Names → Names
  | [] => [name]
  | n :: rest =>
    if name = n then n :: rest
    else if name < n then name :: n :: rest
    else n :: insert name rest

/-- The set of the names in a list. -/
def ofList (names : List String) : Names :=
  names.foldl (fun set n => insert n set) []

/-- The names in either set. -/
def union (a b : Names) : Names :=
  b.foldl (fun set n => insert n set) a

end Names

/-- Things by ascending name, one for each name. -/
abbrev Named (α : Type) := List (String × α)

namespace Named

/-- Puts a thing under a name, in place of an earlier one. -/
def insert {α : Type} (name : String) (a : α) : Named α → Named α
  | [] => [(name, a)]
  | (n, b) :: rest =>
    if name = n then (name, a) :: rest
    else if name < n then (name, a) :: (n, b) :: rest
    else (n, b) :: insert name a rest

/-- What stands under a name. -/
def get? {α : Type} (table : Named α) (name : String) : Option α :=
  table.lookup name

/-- The names in a table. -/
def names {α : Type} (table : Named α) : Names :=
  table.map (·.1)

end Named

end LiveTemplate
