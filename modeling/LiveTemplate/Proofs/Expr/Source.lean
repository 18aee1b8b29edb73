/-
Resolved expressions as they are written. A field is written as a member of the component, a method
as a call of such a member, and a function as a call of its name.
-/
import LiveTemplate.Expr.Resolve
import LiveTemplate.Expr.Printer
import Mathlib.Tactic

namespace LiveTemplate

/-! ## Written forms -/

/-- A function as it is called: by its name, or as a member of a namespace. -/
def functionCallee (s : Span) (n : String) : Expr :=
  match n.toList.dropWhile (· != '.') with
  | [] => .name s n
  | _ :: p => .member s (.name s (String.ofList (n.toList.takeWhile (· != '.')))) (String.ofList p) false

/-- A root as it is written. -/
def Root.source (s : Span) : Root → Expr
  | .component => .self s
  | .state => .member s (.self s) "state" false
  | .props => .member s (.self s) "props" false
  | .bound n => .name s n
  | .field n => .member s (.self s) n false

mutual

/-- A resolved expression as it is written. -/
def Expr.source : Expr → Expr
  | .literal s v => .literal s v
  | .template s parts => .template s (sourceParts parts)
  | .name s n => .name s n
  | .self s => .self s
  | .root s r => r.source s
  | .member s o p optional => .member s o.source p optional
  | .index s o i optional => .index s o.source i.source optional
  | .call s callee args => .call s callee.source (sourceAll args)
  | .method s n args => .call s (.member s (.self s) n false) (sourceAll args)
  | .function s n args => .call s (functionCallee s n) (sourceAll args)
  | .unary s op e => .unary s op e.source
  | .binary s op l r => .binary s op l.source r.source
  | .conditional s c t e => .conditional s c.source t.source e.source
  | .array s items => .array s (sourceAll items)
  | .object s entries => .object s (sourceEntries entries)
  | .arrow s params body => .arrow s params body.source

def sourceAll : List Expr → List Expr
  | [] => []
  | e :: rest => e.source :: sourceAll rest

def sourceEntries : List (String × Expr) → List (String × Expr)
  | [] => []
  | (k, e) :: rest => (k, e.source) :: sourceEntries rest

def sourceParts : List TemplatePart → List TemplatePart
  | [] => []
  | .text t :: rest => .text t :: sourceParts rest
  | .hole e :: rest => .hole e.source :: sourceParts rest

end

theorem functionCallee_print (s : Span) (n : String) :
    (functionCallee s n).print = n ∧ (functionCallee s n).precedence = 8 := by
  have joined := List.takeWhile_append_dropWhile (p := (· != '.')) (l := n.toList)
  unfold functionCallee
  split
  · exact ⟨rfl, rfl⟩
  · rename_i c p heq
    have point : c = '.' := by
      have := List.head?_dropWhile_not (· != '.') n.toList
      rw [heq] at this
      simpa using this
    rw [heq, point] at joined
    refine ⟨?_, rfl⟩
    rw [← String.toList_inj]
    conv_rhs => rw [← joined]
    simp [Expr.print, parenthesize, Expr.precedence]

theorem Root.print_source (s : Span) (r : Root) : (r.source s).print = r.print := by
  cases r <;> rfl

theorem Expr.precedence_source (e : Expr) : e.source.precedence = e.precedence := by
  cases e with
  | root s r => cases r <;> rfl
  | _ => rfl

theorem Expr.isObject_source (e : Expr) : e.source.isObject = e.isObject := by
  cases e with
  | root s r => cases r <;> rfl
  | _ => rfl

mutual

/-- An expression is printed as it is written. -/
theorem Expr.print_source : ∀ e : Expr, e.source.print = e.print
  | .literal .. | .name .. | .self .. => by rw [Expr.source]
  | .root s r => by rw [Expr.source, Root.print_source, Expr.print]
  | .template s parts => by rw [Expr.source, Expr.print, Expr.print, printParts_source]
  | .member s o p optional => by
    rw [Expr.source, Expr.print, Expr.print, o.print_source, o.precedence_source]
  | .index s o i optional => by
    rw [Expr.source, Expr.print, Expr.print, o.print_source, o.precedence_source, i.print_source]
  | .call s callee args => by
    rw [Expr.source, Expr.print, Expr.print, callee.print_source, callee.precedence_source, printAll_source]
  | .method s n args => by
    rw [Expr.source, Expr.print, Expr.print, printAll_source]
    rfl
  | .function s n args => by
    obtain ⟨text, precedence⟩ := functionCallee_print s n
    rw [Expr.source, Expr.print, Expr.print, printAll_source, text, precedence]
    rfl
  | .unary s op e => by rw [Expr.source, Expr.print, Expr.print, e.print_source, e.precedence_source]
  | .binary s op l r => by
    rw [Expr.source, Expr.print, Expr.print, l.print_source, l.precedence_source, r.print_source, r.precedence_source]
  | .conditional s c t e => by
    rw [Expr.source, Expr.print, Expr.print, c.print_source, c.precedence_source, t.print_source, e.print_source]
  | .array s items => by rw [Expr.source, Expr.print, Expr.print, printAll_source]
  | .object s entries => by rw [Expr.source, Expr.print, Expr.print, printEntries_source]
  | .arrow s params body => by
    rw [Expr.source, Expr.print, Expr.print, body.print_source, body.isObject_source]

theorem printAll_source : ∀ es : List Expr, printAll (sourceAll es) = printAll es
  | [] => rfl
  | e :: rest => by rw [sourceAll, printAll, printAll, e.print_source, printAll_source rest]

theorem printEntries_source : ∀ entries : List (String × Expr),
    printEntries (sourceEntries entries) = printEntries entries
  | [] => rfl
  | (k, e) :: rest => by
    rw [sourceEntries, printEntries, printEntries, e.print_source, printEntries_source rest]

theorem printParts_source : ∀ parts : List TemplatePart,
    printParts (sourceParts parts) = printParts parts
  | [] => rfl
  | .text t :: rest => by rw [sourceParts, printParts, printParts, printParts_source rest]
  | .hole e :: rest => by
    rw [sourceParts, printParts, printParts, e.print_source, printParts_source rest]

end

end LiveTemplate
