/-
Resolution of expressions. What it makes of an expression is said by a relation with a rule for each
form, so that proofs about its results go by these rules and need not look at how they are computed.
In its results no plain name and no reference to the component is left, whatever is called is a
member, and there are no arrow functions.
-/
import LiveTemplate.Expr.Resolve
import LiveTemplate.Proofs.Computation
import LiveTemplate.Proofs.Expr.Reads

namespace LiveTemplate

namespace Expr

/-- Whether the outermost form of an expression can be evaluated. -/
def isResolved : Expr → Bool
  | name .. | self _ | arrow .. => false
  | call _ (member ..) _ => true
  | call .. => false
  | _ => true

/-- No form that resolution does away with is left in an expression. -/
def Resolved (e : Expr) : Prop := ∀ x ∈ e.subterms, x.isResolved = true

/-- Whether an expression is the component. -/
def isSelf : Expr → Bool
  | self _ => true
  | _ => false

theorem self_of_not {o : Expr} {optional : Bool} (h : ¬ (o.isSelf = false ∨ optional = true)) :
    ∃ s, o = .self s ∧ optional = false := by
  cases o with
  | self s => exact ⟨s, rfl, by simpa [isSelf] using h⟩
  | _ => exact absurd (.inl rfl) h

end Expr

/-! ## Members -/

section

variable {scope : NameScope} {o : Expr} {optional : Bool}

theorem Expr.resolve_member_object (h : o.isSelf = false ∨ optional = true) (s : Span)
    (p : String) :
    (Expr.member s o p optional).resolve scope = do
      return .member s (← o.resolve scope) p optional := by
  cases o
  case self =>
    obtain rfl : optional = true := by simpa [isSelf] using h
    rfl
  all_goals rfl

/-- A call of a member of a value, which is neither the component nor a namespace. -/
theorem Expr.resolve_call_object (h : o.isSelf = false ∨ optional = true)
    (hn : ∀ t n, o = .name t n → scope.binds n = true ∨ namespaces.contains n = false) (s t : Span)
    (p : String) (args : List Expr) :
    (Expr.call s (.member t o p optional) args).resolve scope = do
      let args ← resolveAll scope args
      return .call s (.member t (← o.resolve scope) p optional) args := by
  cases o
  case self =>
    obtain rfl : optional = true := by simpa [isSelf] using h
    rfl
  case name u n =>
    have other : (!scope.binds n && namespaces.contains n) = false := by
      rcases hn u n rfl with hb | hb
      · rw [hb]
        rfl
      · rw [hb, Bool.and_false]
    conv_lhs => rw [Expr.resolve]
    simp only [other]
    rfl
  all_goals rfl

end

/-! ## Resolution -/

mutual

/-- What resolution makes of an expression. -/
inductive Expr.Resolves (scope : NameScope) : Expr → Expr → Prop
  | literal (s : Span) (v : Value) : Expr.Resolves scope (.literal s v) (.literal s v)
  | root (s : Span) (r : Root) : Expr.Resolves scope (.root s r) (.root s r)
  | template {s : Span} {parts parts' : List TemplatePart}
    (hp : ResolvesParts scope parts parts') :
    Expr.Resolves scope (.template s parts) (.template s parts')
  | self (s : Span) : Expr.Resolves scope (.self s) (.root s .component)
  | name (s : Span) (n : String) : Expr.Resolves scope (.name s n) (.root s (scope.root n))
  /-- A member of the component is a part of it. -/
  | part (s t : Span) (p : String) :
    Expr.Resolves scope (.member s (.self t) p false) (.root s (.named p))
  | member {s : Span} {o o' : Expr} {p : String} {optional : Bool}
    (value : o.isSelf = false ∨ optional = true) (ho : Expr.Resolves scope o o') :
    Expr.Resolves scope (.member s o p optional) (.member s o' p optional)
  | index {s : Span} {o o' i i' : Expr} {optional : Bool} (ho : Expr.Resolves scope o o')
    (hi : Expr.Resolves scope i i') :
    Expr.Resolves scope (.index s o i optional) (.index s o' i' optional)
  /-- A bare call is one of a known function. -/
  | bareFunction {s t : Span} {n : String} {args args' : List Expr} (free : scope.binds n = false)
    (known : scope.knows n = true) (ha : ResolvesAll scope args args') :
    Expr.Resolves scope (.call s (.name t n) args) (.function s n args')
  /-- Any other bare call is one of a component method. -/
  | bareMethod {s t : Span} {n : String} {args args' : List Expr} (free : scope.binds n = false)
    (unknown : scope.knows n = false) (ha : ResolvesAll scope args args') :
    Expr.Resolves scope (.call s (.name t n) args) (.method s n args')
  | ownMethod {s t u : Span} {p : String} {args args' : List Expr}
    (ha : ResolvesAll scope args args') :
    Expr.Resolves scope (.call s (.member t (.self u) p false) args) (.method s p args')
  /-- A call through a namespace is one of a known function. -/
  | namespaced {s t u : Span} {n p : String} {optional : Bool} {args args' : List Expr}
    (free : scope.binds n = false) (among : namespaces.contains n = true)
    (known : scope.knows (n ++ "." ++ p) = true) (ha : ResolvesAll scope args args') :
    Expr.Resolves scope (.call s (.member t (.name u n) p optional) args)
      (.function s (n ++ "." ++ p) args')
  /-- A call of a member of a value. -/
  | call {s t : Span} {o o' : Expr} {p : String} {optional : Bool} {args args' : List Expr}
    (value : o.isSelf = false ∨ optional = true)
    (other : ∀ u n, o = .name u n → scope.binds n = true ∨ namespaces.contains n = false)
    (ho : Expr.Resolves scope o o') (ha : ResolvesAll scope args args') :
    Expr.Resolves scope (.call s (.member t o p optional) args)
      (.call s (.member t o' p optional) args')
  | method {s : Span} {n : String} {args args' : List Expr} (ha : ResolvesAll scope args args') :
    Expr.Resolves scope (.method s n args) (.method s n args')
  | function {s : Span} {n : String} {args args' : List Expr} (ha : ResolvesAll scope args args') :
    Expr.Resolves scope (.function s n args) (.function s n args')
  | unary {s : Span} {op : UnaryOp} {e e' : Expr} (he : Expr.Resolves scope e e') :
    Expr.Resolves scope (.unary s op e) (.unary s op e')
  | binary {s : Span} {op : BinaryOp} {l l' r r' : Expr} (hl : Expr.Resolves scope l l')
    (hr : Expr.Resolves scope r r') : Expr.Resolves scope (.binary s op l r) (.binary s op l' r')
  | conditional {s : Span} {c c' t t' e e' : Expr} (hc : Expr.Resolves scope c c')
    (ht : Expr.Resolves scope t t') (he : Expr.Resolves scope e e') :
    Expr.Resolves scope (.conditional s c t e) (.conditional s c' t' e')
  | array {s : Span} {items items' : List Expr} (hi : ResolvesAll scope items items') :
    Expr.Resolves scope (.array s items) (.array s items')
  | object {s : Span} {entries entries' : List (String × Expr)}
    (he : ResolvesEntries scope entries entries') :
    Expr.Resolves scope (.object s entries) (.object s entries')

inductive ResolvesAll (scope : NameScope) : List Expr → List Expr → Prop
  | nil : ResolvesAll scope [] []
  | cons {e e' : Expr} {rest rest' : List Expr} (he : Expr.Resolves scope e e')
    (hr : ResolvesAll scope rest rest') : ResolvesAll scope (e :: rest) (e' :: rest')

inductive ResolvesEntries (scope : NameScope) : List (String × Expr) → List (String × Expr) → Prop
  | nil : ResolvesEntries scope [] []
  | cons {k : String} {e e' : Expr} {rest rest' : List (String × Expr)}
    (he : Expr.Resolves scope e e') (hr : ResolvesEntries scope rest rest') :
    ResolvesEntries scope ((k, e) :: rest) ((k, e') :: rest')

inductive ResolvesParts (scope : NameScope) : List TemplatePart → List TemplatePart → Prop
  | nil : ResolvesParts scope [] []
  | text {t : String} {rest rest' : List TemplatePart} (hr : ResolvesParts scope rest rest') :
    ResolvesParts scope (.text t :: rest) (.text t :: rest')
  | hole {e e' : Expr} {rest rest' : List TemplatePart} (he : Expr.Resolves scope e e')
    (hr : ResolvesParts scope rest rest') :
    ResolvesParts scope (.hole e :: rest) (.hole e' :: rest')

end

mutual

/-- Resolution goes by the rules. -/
theorem Expr.resolves_of_resolve {scope : NameScope} : ∀ {raw e : Expr},
    raw.resolve scope = .ok e → Expr.Resolves scope raw e
  | .literal .., _, h | .root .., _, h | .self _, _, h | .name .., _, h => by
    cases h
    constructor
  | .template s parts, _, h => by
    rw [Expr.resolve] at h
    obtain ⟨parts', hp, rfl⟩ := results_of_map h
    exact .template (resolvesParts_of_resolve hp)
  | .member s o p optional, _, h => by
    by_cases value : o.isSelf = false ∨ optional = true
    · rw [Expr.resolve_member_object value] at h
      obtain ⟨o', ho, h⟩ := results_of_bind h
      cases h
      exact .member value (Expr.resolves_of_resolve ho)
    · obtain ⟨t, rfl, rfl⟩ := Expr.self_of_not value
      cases h
      exact .part s t p
  | .index s o i optional, _, h => by
    rw [Expr.resolve] at h
    obtain ⟨o', ho, h⟩ := results_of_bind h
    obtain ⟨i', hi, h⟩ := results_of_bind h
    cases h
    exact .index (Expr.resolves_of_resolve ho) (Expr.resolves_of_resolve hi)
  | .call s (.name t n) args, _, h => by
    rw [Expr.resolve] at h
    obtain ⟨args', ha, h⟩ := results_of_bind h
    have ha := resolvesAll_of_resolve ha
    split at h
    · cases h
    next bound =>
      have free : scope.binds n = false := Bool.eq_false_iff.2 bound
      split at h
      next known =>
        cases h
        exact .bareFunction free known ha
      next unknown =>
        cases h
        exact .bareMethod free (Bool.eq_false_iff.2 unknown) ha
  | .call s (.member t o p optional) args, _, h => by
    by_cases value : o.isSelf = false ∨ optional = true
    · by_cases other : ∀ u n, o = .name u n → scope.binds n = true ∨ namespaces.contains n = false
      · rw [Expr.resolve_call_object value other] at h
        obtain ⟨args', ha, h⟩ := results_of_bind h
        obtain ⟨o', ho, h⟩ := results_of_bind h
        cases h
        exact .call value other (Expr.resolves_of_resolve ho) (resolvesAll_of_resolve ha)
      · push Not at other
        obtain ⟨u, n, rfl, bound, among⟩ := other
        have free : scope.binds n = false := Bool.eq_false_iff.2 bound
        have among : namespaces.contains n = true := Bool.ne_false_iff.1 among
        rw [Expr.resolve] at h
        obtain ⟨args', ha, h⟩ := results_of_bind h
        simp only [free, among, Bool.not_false, Bool.and_self, if_true] at h
        split at h
        next known =>
          cases h
          exact .namespaced free among known (resolvesAll_of_resolve ha)
        · cases h
    · obtain ⟨u, rfl, rfl⟩ := Expr.self_of_not value
      obtain ⟨args', ha, h⟩ := results_of_bind h
      cases h
      exact .ownMethod (resolvesAll_of_resolve ha)
  | .method s n args, _, h => by
    rw [Expr.resolve] at h
    obtain ⟨args', ha, h⟩ := results_of_bind h
    cases h
    exact .method (resolvesAll_of_resolve ha)
  | .function s n args, _, h => by
    rw [Expr.resolve] at h
    obtain ⟨args', ha, h⟩ := results_of_bind h
    cases h
    exact .function (resolvesAll_of_resolve ha)
  | .unary s op e, _, h => by
    rw [Expr.resolve] at h
    obtain ⟨e', he, h⟩ := results_of_bind h
    cases h
    exact .unary (Expr.resolves_of_resolve he)
  | .binary s op l r, _, h => by
    rw [Expr.resolve] at h
    obtain ⟨l', hl, h⟩ := results_of_bind h
    obtain ⟨r', hr, h⟩ := results_of_bind h
    cases h
    exact .binary (Expr.resolves_of_resolve hl) (Expr.resolves_of_resolve hr)
  | .conditional s c t e, _, h => by
    rw [Expr.resolve] at h
    obtain ⟨c', hc, h⟩ := results_of_bind h
    obtain ⟨t', ht, h⟩ := results_of_bind h
    obtain ⟨e', he, h⟩ := results_of_bind h
    cases h
    exact .conditional (Expr.resolves_of_resolve hc) (Expr.resolves_of_resolve ht)
      (Expr.resolves_of_resolve he)
  | .array s items, _, h => by
    rw [Expr.resolve] at h
    obtain ⟨items', hi, h⟩ := results_of_bind h
    cases h
    exact .array (resolvesAll_of_resolve hi)
  | .object s entries, _, h => by
    rw [Expr.resolve] at h
    obtain ⟨entries', he, h⟩ := results_of_bind h
    cases h
    exact .object (resolvesEntries_of_resolve he)
  | .arrow .., _, h => by cases h
  -- nothing else can be called, so the arguments are resolved in vain
  | .call _ (.literal ..) _, _, h | .call _ (.template ..) _, _, h | .call _ (.root ..) _, _, h
  | .call _ (.self ..) _, _, h | .call _ (.index ..) _, _, h | .call _ (.call ..) _, _, h
  | .call _ (.method ..) _, _, h | .call _ (.function ..) _, _, h | .call _ (.unary ..) _, _, h
  | .call _ (.binary ..) _, _, h | .call _ (.conditional ..) _, _, h | .call _ (.array ..) _, _, h
  | .call _ (.object ..) _, _, h | .call _ (.arrow ..) _, _, h => by
    obtain ⟨_, -, h⟩ := results_of_bind h
    cases h

theorem resolvesAll_of_resolve {scope : NameScope} : ∀ {raw es : List Expr},
    resolveAll scope raw = .ok es → ResolvesAll scope raw es
  | [], _, h => by
    cases h
    exact .nil
  | e :: rest, _, h => by
    rw [resolveAll] at h
    obtain ⟨e', he, h⟩ := results_of_bind h
    obtain ⟨rest', hr, h⟩ := results_of_bind h
    cases h
    exact .cons (Expr.resolves_of_resolve he) (resolvesAll_of_resolve hr)

theorem resolvesEntries_of_resolve {scope : NameScope} : ∀ {raw entries : List (String × Expr)},
    resolveEntries scope raw = .ok entries → ResolvesEntries scope raw entries
  | [], _, h => by
    cases h
    exact .nil
  | (k, e) :: rest, _, h => by
    rw [resolveEntries] at h
    obtain ⟨e', he, h⟩ := results_of_bind h
    obtain ⟨rest', hr, h⟩ := results_of_bind h
    cases h
    exact .cons (Expr.resolves_of_resolve he) (resolvesEntries_of_resolve hr)

theorem resolvesParts_of_resolve {scope : NameScope} : ∀ {raw parts : List TemplatePart},
    resolveParts scope raw = .ok parts → ResolvesParts scope raw parts
  | [], _, h => by
    cases h
    exact .nil
  | .text t :: rest, _, h => by
    rw [resolveParts] at h
    obtain ⟨rest', hr, h⟩ := results_of_bind h
    cases h
    exact .text (resolvesParts_of_resolve hr)
  | .hole e :: rest, _, h => by
    rw [resolveParts] at h
    obtain ⟨e', he, h⟩ := results_of_bind h
    obtain ⟨rest', hr, h⟩ := results_of_bind h
    cases h
    exact .hole (Expr.resolves_of_resolve he) (resolvesParts_of_resolve hr)

end

/-! ## Resolved expressions -/

mutual

/-- Resolution gives resolved expressions only. -/
theorem Expr.Resolves.resolved {scope : NameScope} : ∀ {raw e : Expr},
    Expr.Resolves scope raw e → e.Resolved
  | _, _, .literal .. | _, _, .root .. | _, _, .self _ | _, _, .name .. | _, _, .part .. =>
    List.forall_mem_singleton.2 rfl
  | _, _, .template hp => List.forall_mem_cons.2 ⟨rfl, hp.resolved⟩
  | _, _, .member _ he | _, _, .unary he => List.forall_mem_cons.2 ⟨rfl, he.resolved⟩
  | _, _, .index hl hr | _, _, .binary hl hr =>
    List.forall_mem_cons.2 ⟨rfl, List.forall_mem_append.2 ⟨hl.resolved, hr.resolved⟩⟩
  | _, _, .bareFunction _ _ ha | _, _, .bareMethod _ _ ha | _, _, .ownMethod ha
  | _, _, .namespaced _ _ _ ha | _, _, .method ha | _, _, .function ha | _, _, .array ha =>
    List.forall_mem_cons.2 ⟨rfl, ha.resolved⟩
  | _, _, .call _ _ ho ha => by
    simp only [Expr.Resolved, Expr.subterms, List.forall_mem_cons, List.forall_mem_append]
    exact ⟨rfl, ⟨rfl, ho.resolved⟩, ha.resolved⟩
  | _, _, .conditional hc ht he => by
    simp only [Expr.Resolved, Expr.subterms, List.forall_mem_cons, List.forall_mem_append]
    exact ⟨rfl, hc.resolved, ht.resolved, he.resolved⟩
  | _, _, .object he => List.forall_mem_cons.2 ⟨rfl, he.resolved⟩

theorem ResolvesAll.resolved {scope : NameScope} : ∀ {raw es : List Expr},
    ResolvesAll scope raw es → ∀ x ∈ subtermsAll es, x.isResolved = true
  | _, _, .nil => List.forall_mem_nil _
  | _, _, .cons he hr => List.forall_mem_append.2 ⟨he.resolved, hr.resolved⟩

theorem ResolvesEntries.resolved {scope : NameScope} : ∀ {raw entries : List (String × Expr)},
    ResolvesEntries scope raw entries → ∀ x ∈ subtermsEntries entries, x.isResolved = true
  | _, _, .nil => List.forall_mem_nil _
  | _, _, .cons he hr => List.forall_mem_append.2 ⟨he.resolved, hr.resolved⟩

theorem ResolvesParts.resolved {scope : NameScope} : ∀ {raw parts : List TemplatePart},
    ResolvesParts scope raw parts → ∀ x ∈ subtermsParts parts, x.isResolved = true
  | _, _, .nil => List.forall_mem_nil _
  | _, _, .text hr => hr.resolved
  | _, _, .hole he hr => List.forall_mem_append.2 ⟨he.resolved, hr.resolved⟩

end

end LiveTemplate
