/-
What reading an expression comes to. Tokens form an expression by the rules of the grammar, whichever
operator binds tightest; the faults of a region are those of cutting it into tokens, of its tokens, of
its strings, and those of the interpolations in it. Every run of the parser ends in an expression that
the tokens form or in one of these faults. What holds of all parsed expressions, or of all faults, is
proved by induction on them, so it does not depend on how the parser goes about reading.
-/
import LiveTemplate.Proofs.Computation
import LiveTemplate.Proofs.Expr.Parsing

namespace LiveTemplate

open Text

namespace Grammar

/-! ## Expressions -/

/-- The places in a text at `pos` of a template string that reading it comes to, each with what stands
there. -/
inductive Scans (pos : Nat) (cs : List Char) : Nat → List Char → Prop
  | start : Scans pos cs pos cs
  | hole {p : Nat} {rest inside after : List Char} : Scans pos cs p ('$' :: '{' :: rest) →
    Delimiter.closeBrace (p + 1) rest = .ok (inside, after) →
      Scans pos cs (p + 2 + byteLength inside) after
  | escape {p : Nat} {c : Char} {rest after : List Char} : Scans pos cs p ('\\' :: rest) →
    Grammar.escape p rest = .ok (c, after) →
      Scans pos cs (p + 1 + byteLength (rest.take (rest.length - after.length))) after
  | char {p : Nat} {c : Char} {rest : List Char} : Scans pos cs p (c :: rest) → c ≠ '\\' →
    (c = '$' → rest.head? ≠ some '{') → Scans pos cs (p + c.utf8Size) rest

/-- The mark of an optional access, or of a plain one, in front of its bracket. -/
inductive Marked : Bool → List Lexeme → List Lexeme → Prop
  | plain (ts : List Lexeme) : Marked false ts ts
  | optional {q : Lexeme} (hq : q.token = .questionDot) (ts : List Lexeme) : Marked true (q :: ts) ts

mutual

/-- The first tokens form an expression, and the others are left. -/
inductive Forms : List Lexeme → Expr → List Lexeme → Prop
  | number {t : Lexeme} {text : List Char} {v : Value} {rest : List Lexeme} :
    t.token = .number text → numeral? text = some v → Forms (t :: rest) (.literal t.span v) rest
  | string {t : Lexeme} {body : List Char} {s : String} {rest : List Lexeme} :
    t.token = .string body → stringText t.span body = .ok s →
      Forms (t :: rest) (.literal t.span (.text s)) rest
  | template {t : Lexeme} {body : List Char} {parts : List TemplatePart} {rest : List Lexeme} :
    t.token = .template body → FormsParts (t.span.start + 1) body parts →
      Forms (t :: rest) (.template t.span parts) rest
  | word {t : Lexeme} {name : String} {rest : List Lexeme} : t.token = .ident name →
    name ≠ "typeof" → Forms (t :: rest) (wordExpr t.span name) rest
  | parentheses {o c : Lexeme} {inner rest : List Lexeme} {e : Expr} : o.token = .openParen →
    Forms inner e (c :: rest) → c.token = .closeParen →
      Forms (o :: inner) (e.withSpan (o.span.union c.span)) rest
  | array {o : Lexeme} {inner rest : List Lexeme} {items : List Expr} {s : Span} :
    o.token = .openBracket → FormsList .closeBracket inner items s rest →
      Forms (o :: inner) (.array (o.span.union s) items) rest
  | object {o : Lexeme} {inner rest : List Lexeme} {entries : List (String × Expr)} {s : Span} :
    o.token = .openBrace → FormsEntries inner entries s rest →
      Forms (o :: inner) (.object (o.span.union s) entries) rest
  | member {ts rest : List Lexeme} {o : Expr} {d : Lexeme} {p : String} {s : Span} (optional : Bool) :
    Forms ts o (d :: ⟨.ident p, s⟩ :: rest) →
    d.token = (if optional then .questionDot else .dot) →
      Forms ts (.member (o.span.union s) o p optional) rest
  | index {ts mid inner rest : List Lexeme} {o i : Expr} {b c : Lexeme} {optional : Bool} :
    Forms ts o mid → Marked optional mid (b :: inner) → b.token = .openBracket →
    Forms inner i (c :: rest) → c.token = .closeBracket →
      Forms ts (.index (o.span.union c.span) o i optional) rest
  | call {ts mid inner rest : List Lexeme} {callee : Expr} {args : List Expr} {b : Lexeme} {s : Span}
    {optional : Bool} : Forms ts callee mid → Marked optional mid (b :: inner) → b.token = .openParen →
    FormsList .closeParen inner args s rest → Forms ts (.call (callee.span.union s) callee args) rest
  /-- Where the bound on the depth is met behind the mark of an access, the access is left out. -/
  | cut {ts mid rest : List Lexeme} {e : Expr} {optional : Bool} :
    Forms ts e mid → Marked optional mid rest → Forms ts e rest
  | unary {t : Lexeme} {op : UnaryOp} {ts rest : List Lexeme} {e : Expr} : unaryOp? t.token = some op →
    Forms ts e rest → Forms (t :: ts) (.unary (t.span.union e.span) op e) rest
  | binary {ts mid rest : List Lexeme} {l r : Expr} {t : Lexeme} {op : BinaryOp} :
    Forms ts l (t :: mid) → binaryOp? t.token = some op → Forms mid r rest →
      Forms ts (.binary (l.span.union r.span) op l r) rest
  | conditional {ts mid behind rest : List Lexeme} {test yes no : Expr} {q c : Lexeme} :
    Forms ts test (q :: mid) → q.token = .question → Forms mid yes (c :: behind) → c.token = .colon →
    Forms behind no rest → Forms ts (.conditional (test.span.union no.span) test yes no) rest
  | arrow {ts behind rest : List Lexeme} {params : List String} {body : Expr} :
    Parser.arrowParams ts = some (params, behind) → Forms behind body rest →
      Forms ts (.arrow (((ts.head?.map Lexeme.span).getD body.span).union body.span) params body) rest

/-- The first tokens form expressions between commas, with a closing token at the end. -/
inductive FormsList : Token → List Lexeme → List Expr → Span → List Lexeme → Prop
  | nil {c : Lexeme} {rest : List Lexeme} : FormsList c.token (c :: rest) [] c.span rest
  | last {ts rest : List Lexeme} {e : Expr} {c : Lexeme} : Forms ts e (c :: rest) →
    FormsList c.token ts [e] c.span rest
  | cons {closing : Token} {ts mid rest : List Lexeme} {e : Expr} {es : List Expr} {k : Lexeme}
    {s : Span} : Forms ts e (k :: mid) → k.token = .comma → FormsList closing mid es s rest →
      FormsList closing ts (e :: es) s rest

/-- The first tokens form an entry of an object. -/
inductive FormsEntry : List Lexeme → String → Expr → List Lexeme → Prop
  | pair {t k : Lexeme} {key : String} {mid rest : List Lexeme} {value : Expr} : entryKey t = .ok key →
    k.token = .colon → Forms mid value rest → FormsEntry (t :: k :: mid) key value rest
  | short {t : Lexeme} {name : String} {rest : List Lexeme} : t.token = .ident name →
    FormsEntry (t :: rest) name (.name t.span name) rest

/-- The first tokens form entries between commas, with a closing brace at the end. -/
inductive FormsEntries : List Lexeme → List (String × Expr) → Span → List Lexeme → Prop
  | nil {c : Lexeme} {rest : List Lexeme} : c.token = .closeBrace →
    FormsEntries (c :: rest) [] c.span rest
  | last {ts rest : List Lexeme} {key : String} {value : Expr} {c : Lexeme} :
    FormsEntry ts key value (c :: rest) → c.token = .closeBrace →
      FormsEntries ts [(key, value)] c.span rest
  | cons {ts mid rest : List Lexeme} {key : String} {value : Expr} {others : List (String × Expr)}
    {k : Lexeme} {s : Span} : FormsEntry ts key value (k :: mid) → k.token = .comma →
    FormsEntries mid others s rest → FormsEntries ts ((key, value) :: others) s rest

/-- The text of a template string has these parts, up to where a bound on its length is met. -/
inductive FormsParts : Nat → List Char → List TemplatePart → Prop
  | done (pos : Nat) (cs : List Char) : FormsParts pos cs []
  | hole {pos : Nat} {rest inside after : List Char} {ts : List Lexeme} {e : Expr}
    {others : List TemplatePart} : Delimiter.closeBrace (pos + 1) rest = .ok (inside, after) →
    tokenize ⟨pos + 2, inside.dropLast⟩ = .ok ts → Forms ts e [] →
    FormsParts (pos + 2 + byteLength inside) after others →
      FormsParts pos ('$' :: '{' :: rest) (.hole e :: others)
  | escape {pos : Nat} {c : Char} {rest after : List Char} {others : List TemplatePart} :
    Grammar.escape pos rest = .ok (c, after) →
    FormsParts (pos + 1 + byteLength (rest.take (rest.length - after.length))) after others →
      FormsParts pos ('\\' :: rest) (pushChar c others)
  | char {pos : Nat} {c : Char} {rest : List Char} {others : List TemplatePart} :
    FormsParts (pos + c.utf8Size) rest others → FormsParts pos (c :: rest) (pushChar c others)

end

theorem Marked.suffix {optional : Bool} {ts rest : List Lexeme} (h : Marked optional ts rest) :
    rest <:+ ts := by
  cases h with
  | plain => exact List.suffix_rfl
  | optional _ _ => exact List.suffix_cons _ _

mutual

/-- What an expression leaves are the last of the tokens. -/
theorem Forms.suffix : ∀ {ts : List Lexeme} {e : Expr} {rest : List Lexeme}, Forms ts e rest → rest <:+ ts
  | _, _, _, .number .. | _, _, _, .string .. | _, _, _, .template .. | _, _, _, .word .. =>
    List.suffix_cons _ _
  | _, _, _, .parentheses _ he _ =>
    (List.suffix_cons _ _).trans (he.suffix.trans (List.suffix_cons _ _))
  | _, _, _, .array _ hi => hi.suffix.trans (List.suffix_cons _ _)
  | _, _, _, .object _ he => he.suffix.trans (List.suffix_cons _ _)
  | _, _, _, .member _ ho _ => List.IsSuffix.trans ⟨[_, _], rfl⟩ ho.suffix
  | _, _, _, .index ho marked _ hi _ => (List.suffix_cons _ _).trans (hi.suffix.trans
      ((List.suffix_cons _ _).trans (marked.suffix.trans ho.suffix)))
  | _, _, _, .call hc marked _ ha =>
    ha.suffix.trans ((List.suffix_cons _ _).trans (marked.suffix.trans hc.suffix))
  | _, _, _, .cut he marked => marked.suffix.trans he.suffix
  | _, _, _, .unary _ he => he.suffix.trans (List.suffix_cons _ _)
  | _, _, _, .binary hl _ hr => hr.suffix.trans ((List.suffix_cons _ _).trans hl.suffix)
  | _, _, _, .conditional ht _ hy _ hn => hn.suffix.trans ((List.suffix_cons _ _).trans
      (hy.suffix.trans ((List.suffix_cons _ _).trans ht.suffix)))
  | _, _, _, .arrow hp hb => hb.suffix.trans (Parser.arrowParams_suffix hp)

theorem FormsList.suffix : ∀ {closing : Token} {ts : List Lexeme} {es : List Expr} {s : Span}
    {rest : List Lexeme}, FormsList closing ts es s rest → rest <:+ ts
  | _, _, _, _, _, .nil => List.suffix_cons _ _
  | _, _, _, _, _, .last he => (List.suffix_cons _ _).trans he.suffix
  | _, _, _, _, _, .cons he _ ho => ho.suffix.trans ((List.suffix_cons _ _).trans he.suffix)

theorem FormsEntry.suffix : ∀ {ts : List Lexeme} {key : String} {value : Expr} {rest : List Lexeme},
    FormsEntry ts key value rest → rest <:+ ts
  | _, _, _, _, .pair _ _ hv => hv.suffix.trans ⟨[_, _], rfl⟩
  | _, _, _, _, .short _ => List.suffix_cons _ _

theorem FormsEntries.suffix : ∀ {ts : List Lexeme} {entries : List (String × Expr)} {s : Span}
    {rest : List Lexeme}, FormsEntries ts entries s rest → rest <:+ ts
  | _, _, _, _, .nil _ => List.suffix_cons _ _
  | _, _, _, _, .last he _ => (List.suffix_cons _ _).trans he.suffix
  | _, _, _, _, .cons he _ ho => ho.suffix.trans ((List.suffix_cons _ _).trans he.suffix)

end

/-- The tokens of a region form an expression. -/
def FormsRegion (r : Region) (e : Expr) : Prop := ∃ ts, tokenize r = .ok ts ∧ Forms ts e []

/-! ## Faults -/

/-- A token of a region that is cut into tokens. -/
def HasToken (r : Region) (t : Lexeme) : Prop := ∃ ts, tokenize r = .ok ts ∧ t ∈ ts

/-- A place in a template string of a region that reading the string comes to, with what stands
there. -/
def ScansIn (r : Region) (p : Nat) (rest : List Char) : Prop :=
  ∃ t body, HasToken r t ∧ t.token = .template body ∧ Scans (t.span.start + 1) body p rest

/-- A fault that reading a region can end in. -/
inductive Faults : Region → Fault → Prop
  | lexing {r : Region} {fault : Fault} : tokenize r = .error fault → Faults r fault
  | missing (r : Region) (what : String) : Faults r (Parser.missing what r.stop)
  | mismatch {r : Region} {t : Lexeme} (what : String) : HasToken r t →
    Faults r (Parser.mismatch what t)
  | braced {r : Region} {t : Lexeme} : HasToken r t → Faults r ⟨.bracedArrowBody, t.span⟩
  | number {r : Region} {t : Lexeme} : HasToken r t → Faults r ⟨.badNumber, t.span⟩
  | string {r : Region} {t : Lexeme} {body : List Char} {fault : Fault} : HasToken r t →
    t.token = .string body → stringText t.span body = .error fault → Faults r fault
  | escape {r : Region} {p : Nat} {rest : List Char} {fault : Fault} : ScansIn r p ('\\' :: rest) →
    Grammar.escape p rest = .error fault → Faults r fault
  | unclosed {r : Region} {p : Nat} {rest : List Char} {opened : Delimiter.Unclosed} :
    ScansIn r p ('$' :: '{' :: rest) → Delimiter.closeBrace (p + 1) rest = .error opened →
      Faults r ⟨.unclosedBrace, p + 1, p + 2⟩
  | hole {r : Region} {p : Nat} {rest inside after : List Char} {fault : Fault} :
    ScansIn r p ('$' :: '{' :: rest) → Delimiter.closeBrace (p + 1) rest = .ok (inside, after) →
    Faults ⟨p + 2, inside.dropLast⟩ fault → Faults r fault

variable {α β : Type} {r : Region} {ts : List Lexeme}

theorem entryKey_faults {t : Lexeme} {fault : Fault} (ht : HasToken r t)
    (h : entryKey t = .error fault) : Faults r fault := by
  unfold entryKey at h
  split at h
  case h_1 => cases h
  case h_2 body hb => exact .string ht hb h
  case h_3 =>
    split at h
    · cases h
    · cases h
      exact .number ht
  case h_4 =>
    cases h
    exact .mismatch _ ht

/-! ## Readers -/

/-- A computation gives what has a property, or one of some faults. -/
def Answers (F : Fault → Prop) (P : α → Prop) : Except Fault α → Prop
  | .ok a => P a
  | .error fault => F fault

theorem Answers.bind {F : Fault → Prop} {P : α → Prop} {Q : β → Prop} {x : Except Fault α}
    {f : α → Except Fault β} (h : Answers F P x) (hf : ∀ a, P a → Answers F Q (f a)) :
    Answers F Q (x >>= f) := by
  cases x with
  | error fault => exact h
  | ok a => exact hf a h

theorem Answers.mono {F F' : Fault → Prop} {P : α → Prop} {x : Except Fault α} (h : Answers F P x)
    (hF : ∀ fault, F fault → F' fault) : Answers F' P x := by
  cases x with
  | error fault => exact hF fault h
  | ok a => exact h

/-- What a computation gives is all that is known of it. -/
theorem Answers.self {F : Fault → Prop} {x : Except Fault α} (h : ∀ fault, x = .error fault → F fault) :
    Answers F (x = .ok ·) x := by
  cases x with
  | error fault => exact h fault rfl
  | ok a => exact rfl

/-- The last tokens of a region. -/
def TailOf (r : Region) (ts : List Lexeme) : Prop := ∃ whole, tokenize r = .ok whole ∧ ts <:+ whole

theorem TailOf.suffix {rest : List Lexeme} (h : TailOf r ts) (hs : rest <:+ ts) : TailOf r rest := by
  obtain ⟨whole, cut, suffix⟩ := h
  exact ⟨whole, cut, hs.trans suffix⟩

theorem TailOf.tail {t : Lexeme} (h : TailOf r (t :: ts)) : TailOf r ts :=
  h.suffix (List.suffix_cons t ts)

theorem TailOf.head {t : Lexeme} (h : TailOf r (t :: ts)) : HasToken r t := by
  obtain ⟨whole, cut, suffix⟩ := h
  exact ⟨whole, cut, suffix.subset List.mem_cons_self⟩

/-- A reader at tokens of a region gives what is related to the tokens it leaves, or a fault of the
region. -/
def Runs (r : Region) (P : α → List Lexeme → Prop) (p : Parser α) (ts : List Lexeme) : Prop :=
  TailOf r ts → Answers (Faults r) (fun read => P read.1 read.2 ∧ TailOf r read.2) (p ts)

namespace Runs

variable {P : α → List Lexeme → Prop} {Q : β → List Lexeme → Prop}

theorem pure {a : α} (h : P a ts) : Runs r P (Pure.pure a) ts := fun hts => ⟨h, hts⟩

theorem throw {fault : Fault} (h : Faults r fault) : Runs r P (throwThe Fault fault) ts := fun _ => h

theorem bind {p : Parser α} {f : α → Parser β} (hp : Runs r P p ts)
    (hf : ∀ a rest, P a rest → Runs r Q (f a) rest) : Runs r Q (p >>= f) ts :=
  fun hts => Answers.bind (hp hts) fun read ⟨ha, hrest⟩ => hf read.1 read.2 ha hrest

/-- A computation that reads no tokens. -/
theorem lift {P : α → Prop} {x : Except Fault α} (h : Answers (Faults r) P x) {f : α → Parser β}
    (hf : ∀ a, P a → Runs r Q (f a) ts) : Runs r Q (liftM x >>= f) ts := by
  cases x with
  | error fault => exact fun _ => h
  | ok a => exact hf a h

theorem peek : Runs r (fun found rest => found = ts.head? ∧ rest = ts) Parser.peek ts :=
  fun hts => ⟨⟨rfl, rfl⟩, hts⟩

theorem next (what : String) :
    Runs r (fun t rest => ts = t :: rest ∧ HasToken r t) (Parser.next r.stop what) ts := by
  intro hts
  cases ts with
  | nil => exact .missing r what
  | cons t rest => exact ⟨⟨rfl, hts.head⟩, hts.tail⟩

theorem property : Runs r (fun p rest => ts = ⟨.ident p.1, p.2⟩ :: rest) (Parser.property r.stop) ts := by
  intro hts
  unfold Parser.property
  split
  · exact .missing r _
  · exact ⟨rfl, hts.tail⟩
  · exact .mismatch _ hts.head

end Runs

/-- A given token is taken. -/
inductive Takes (t : Token) : List Lexeme → Span → List Lexeme → Prop
  | intro {l : Lexeme} (rest : List Lexeme) : l.token = t → Takes t (l :: rest) l.span rest

/-- A given token is taken if it comes next. -/
inductive Eats (t : Token) : List Lexeme → Option Span → List Lexeme → Prop
  | left (ts : List Lexeme) : Eats t ts none ts
  | taken {l : Lexeme} (rest : List Lexeme) : l.token = t → Eats t (l :: rest) (some l.span) rest

theorem Runs.expect (t : Token) : Runs r (Takes t ts) (Parser.expect r.stop t) ts := by
  intro hts
  unfold Parser.expect
  split
  · exact .missing r _
  · split
    case isTrue same => exact ⟨.intro _ same, hts.tail⟩
    case isFalse => exact .mismatch _ hts.head

theorem Runs.eat (t : Token) : Runs r (Eats t ts) (Parser.eat t) ts := by
  intro hts
  unfold Parser.eat
  split
  · exact ⟨.left _, hts⟩
  · split
    case isTrue same => exact ⟨.taken _ same, hts.tail⟩
    case isFalse => exact ⟨.left _, hts⟩

/-- The value of an entry that is written as its key alone. -/
theorem Runs.shorthand {t : Lexeme} {key : String} (hk : entryKey t = .ok key) :
    Runs r (FormsEntry (t :: ts) key) (Grammar.shorthand r.stop t) ts := by
  unfold Grammar.shorthand
  split
  case h_1 name word =>
    obtain rfl : name = key := by simpa [entryKey, word] using hk
    exact .pure (.short word)
  case h_2 =>
    refine (Runs.next _).bind ?_
    rintro found _ ⟨-, met⟩
    exact .throw (.mismatch _ met)

/-! ## The grammar -/

/-- Every function of the grammar runs by the rules, up to a bound on the depth. What has been read
already, from the tokens at `origin`, is a part of what is formed. -/
structure RunsAll (fuel : Nat) : Prop where
  expr : ∀ r ts, Runs r (Forms ts) (expr r.stop fuel) ts
  conditional : ∀ r ts, Runs r (Forms ts) (conditionalExpr r.stop fuel) ts
  binary : ∀ r least ts, Runs r (Forms ts) (binaryExpr r.stop fuel least) ts
  binaryTail : ∀ r least {origin lhs ts}, Forms origin lhs ts →
    Runs r (Forms origin) (binaryTail r.stop fuel least lhs) ts
  unary : ∀ r ts, Runs r (Forms ts) (unaryExpr r.stop fuel) ts
  chain : ∀ r ts, (∀ t ∈ ts.head?, t.token ≠ .ident "typeof") →
    Runs r (Forms ts) (postfixExpr r.stop fuel) ts
  links : ∀ r {origin e ts}, Forms origin e ts → Runs r (Forms origin) (postfixTail r.stop fuel e) ts
  index : ∀ r {origin e mid optional ts}, Forms origin e mid → Marked optional mid ts →
    Runs r (Forms origin) (indexOn r.stop fuel e optional) ts
  call : ∀ r {origin e mid optional ts}, Forms origin e mid → Marked optional mid ts →
    Runs r (Forms origin) (callOn r.stop fuel e) ts
  list : ∀ r closing ts,
    Runs r (fun read rest => FormsList closing ts read.1 read.2 rest) (exprList r.stop fuel closing) ts
  primary : ∀ r ts, (∀ t ∈ ts.head?, t.token ≠ .ident "typeof") →
    Runs r (Forms ts) (primary r.stop fuel) ts
  entries : ∀ r ts,
    Runs r (fun read rest => FormsEntries ts read.1 read.2 rest) (objectEntries r.stop fuel) ts
  parts : ∀ r {p cs}, ScansIn r p cs → Answers (Faults r) (FormsParts p cs) (templateParts fuel p cs)
  region : ∀ r, Answers (Faults r) (FormsRegion r) (parseRegion fuel r)

theorem runsAll_zero : RunsAll 0 where
  expr r _ _ := .missing r _
  conditional r _ _ := .missing r _
  binary r _ _ _ := .missing r _
  binaryTail _ _ _ _ _ he := .pure he
  unary r _ _ := .missing r _
  chain r _ _ _ := .missing r _
  links _ _ _ _ he := .pure he
  index _ _ _ _ _ _ he marked := .pure (.cut he marked)
  call _ _ _ _ _ _ he marked := .pure (.cut he marked)
  list r _ _ _ := .missing r _
  primary r _ _ _ := .missing r _
  entries r _ _ := .missing r _
  parts _ _ _ _ := .done _ _
  region r := .missing r _

namespace RunsAll

variable {fuel : Nat}

theorem expr_succ (h : RunsAll fuel) (r : Region) (ts : List Lexeme) :
    Runs r (Forms ts) (Grammar.expr r.stop (fuel + 1)) ts := by
  intro hts
  rw [Grammar.expr]
  beta_reduce
  split
  case h_1 params behind hp =>
    have tail := hts.suffix (Parser.arrowParams_suffix hp)
    split
    · exact .braced tail.head
    · exact (h.expr r _ tail).bind fun read hr => ⟨.arrow hp hr.1, hr.2⟩
  case h_2 => exact h.conditional r ts hts

theorem conditional_succ (h : RunsAll fuel) (r : Region) (ts : List Lexeme) :
    Runs r (Forms ts) (conditionalExpr r.stop (fuel + 1)) ts := by
  rw [conditionalExpr]
  refine (h.binary r 1 ts).bind fun test _ ht => (Runs.eat _).bind ?_
  rintro _ _ (_ | ⟨_, question⟩)
  · exact .pure ht
  refine (h.expr r _).bind fun yes _ hy => (Runs.expect _).bind ?_
  rintro _ _ ⟨_, colon⟩
  exact (h.expr r _).bind fun no _ hn => .pure (.conditional ht question hy colon hn)

theorem binary_succ (h : RunsAll fuel) (r : Region) (least : Nat) (ts : List Lexeme) :
    Runs r (Forms ts) (binaryExpr r.stop (fuel + 1) least) ts := by
  rw [binaryExpr]
  exact (h.unary r ts).bind fun _ _ hl => h.binaryTail r least hl

theorem binaryTail_succ (h : RunsAll fuel) (r : Region) (least : Nat) {origin ts : List Lexeme}
    {lhs : Expr} (hl : Forms origin lhs ts) :
    Runs r (Forms origin) (Grammar.binaryTail r.stop (fuel + 1) least lhs) ts := by
  intro hts
  rw [Grammar.binaryTail]
  beta_reduce
  split
  · split
    case h_1 op hop =>
      split
      · exact ⟨hl, hts⟩
      · exact (h.binary r _ _ hts.tail).bind fun read hr =>
          h.binaryTail r least (.binary hl hop hr.1) hr.2
    case h_2 => exact ⟨hl, hts⟩
  · exact ⟨hl, hts⟩

theorem unary_succ (h : RunsAll fuel) (r : Region) (ts : List Lexeme) :
    Runs r (Forms ts) (unaryExpr r.stop (fuel + 1)) ts := by
  intro hts
  rw [unaryExpr]
  beta_reduce
  split
  case h_1 t rest =>
    split
    case h_1 op hop => exact (h.unary r _ hts.tail).bind fun read hr => ⟨.unary hop hr.1, hr.2⟩
    case h_2 none =>
      refine h.chain r _ ?_ hts
      -- the word would have been an operator
      rintro _ ⟨⟩ word
      rw [word] at none
      cases none
  case h_2 => exact h.chain r [] (by simp) hts

theorem chain_succ (h : RunsAll fuel) (r : Region) (ts : List Lexeme)
    (ht : ∀ t ∈ ts.head?, t.token ≠ .ident "typeof") :
    Runs r (Forms ts) (postfixExpr r.stop (fuel + 1)) ts := by
  rw [postfixExpr]
  exact (h.primary r ts ht).bind fun _ _ he => h.links r he

theorem links_succ (h : RunsAll fuel) (r : Region) {origin ts : List Lexeme} {e : Expr}
    (he : Forms origin e ts) : Runs r (Forms origin) (postfixTail r.stop (fuel + 1) e) ts := by
  have named (optional : Bool) {d : Lexeme} {rest : List Lexeme} (he : Forms origin e (d :: rest))
      (hd : d.token = if optional then .questionDot else .dot) :
      Runs r (Forms origin) (Parser.property r.stop >>= fun p =>
        postfixTail r.stop fuel (.member (e.span.union p.2) e p.1 optional)) rest := by
    refine Runs.property.bind ?_
    rintro p _ rfl
    exact h.links r (.member optional he hd)
  have indexed {optional : Bool} {mid rest : List Lexeme} (he : Forms origin e mid)
      (marked : Marked optional mid rest) :
      Runs r (Forms origin) (indexOn r.stop fuel e optional >>= postfixTail r.stop fuel) rest :=
    (h.index r he marked).bind fun _ _ hi => h.links r hi
  have called {optional : Bool} {mid rest : List Lexeme} (he : Forms origin e mid)
      (marked : Marked optional mid rest) :
      Runs r (Forms origin) (callOn r.stop fuel e >>= postfixTail r.stop fuel) rest :=
    (h.call r he marked).bind fun _ _ hc => h.links r hc
  rw [postfixTail]
  refine Runs.peek.bind ?_
  rintro _ _ ⟨rfl, rfl⟩
  split
  · refine (Runs.expect _).bind ?_
    rintro _ _ ⟨_, dot⟩
    exact named false he dot
  · refine (Runs.expect _).bind ?_
    rintro _ _ ⟨_, question⟩
    refine Runs.peek.bind ?_
    rintro _ _ ⟨rfl, rfl⟩
    split
    · exact indexed he (.optional question _)
    · exact called he (.optional question _)
    · exact named true he question
  · exact indexed he (.plain _)
  · exact called he (.plain _)
  · exact .pure he

theorem index_succ (h : RunsAll fuel) (r : Region) {origin mid ts : List Lexeme} {e : Expr}
    {optional : Bool} (he : Forms origin e mid) (marked : Marked optional mid ts) :
    Runs r (Forms origin) (indexOn r.stop (fuel + 1) e optional) ts := by
  rw [indexOn]
  refine (Runs.expect _).bind ?_
  rintro _ _ ⟨_, bracket⟩
  refine (h.expr r _).bind fun i _ hi => (Runs.expect _).bind ?_
  rintro _ _ ⟨_, closing⟩
  exact .pure (.index he marked bracket hi closing)

theorem call_succ (h : RunsAll fuel) (r : Region) {origin mid ts : List Lexeme} {e : Expr}
    {optional : Bool} (he : Forms origin e mid) (marked : Marked optional mid ts) :
    Runs r (Forms origin) (callOn r.stop (fuel + 1) e) ts := by
  rw [callOn]
  refine (Runs.expect _).bind ?_
  rintro _ _ ⟨_, bracket⟩
  exact (h.list r _ _).bind fun _ _ ha => .pure (.call he marked bracket ha)

theorem list_succ (h : RunsAll fuel) (r : Region) (closing : Token) (ts : List Lexeme) :
    Runs r (fun read rest => FormsList closing ts read.1 read.2 rest)
      (exprList r.stop (fuel + 1) closing) ts := by
  rw [exprList]
  refine (Runs.eat _).bind ?_
  rintro _ _ (_ | ⟨_, rfl⟩)
  · refine (h.expr r ts).bind fun e _ he => (Runs.eat _).bind ?_
    rintro _ _ (_ | ⟨_, comma⟩)
    · refine (Runs.expect _).bind ?_
      rintro _ _ ⟨_, rfl⟩
      exact .pure (.last he)
    · exact (h.list r closing _).bind fun _ _ ho => .pure (.cons he comma ho)
  · exact .pure .nil

theorem primary_succ (h : RunsAll fuel) (r : Region) (ts : List Lexeme)
    (ht : ∀ t ∈ ts.head?, t.token ≠ .ident "typeof") :
    Runs r (Forms ts) (Grammar.primary r.stop (fuel + 1)) ts := by
  rw [Grammar.primary]
  refine (Runs.next _).bind ?_
  rintro t rest ⟨rfl, met⟩
  split
  case h_1 text number =>
    split
    · exact .pure (.number number ‹_›)
    · exact .throw (.number met)
  case h_2 body string =>
    exact .lift (.self fun _ => .string met string) fun s hs => .pure (.string string hs)
  case h_3 body template =>
    exact .lift (h.parts r ⟨t, body, met, template, .start⟩) fun parts hp =>
      .pure (.template template hp)
  case h_4 name word => exact .pure (.word word fun eq => ht t rfl (eq ▸ word))
  case h_5 opening =>
    refine (h.expr r _).bind fun e _ he => (Runs.expect _).bind ?_
    rintro _ _ ⟨_, closing⟩
    exact .pure (.parentheses opening he closing)
  case h_6 opening => exact (h.list r _ _).bind fun _ _ hi => .pure (.array opening hi)
  case h_7 opening => exact (h.entries r _).bind fun _ _ he => .pure (.object opening he)
  case h_8 => exact .throw (.mismatch _ met)

theorem entries_succ (h : RunsAll fuel) (r : Region) (ts : List Lexeme) :
    Runs r (fun read rest => FormsEntries ts read.1 read.2 rest)
      (objectEntries r.stop (fuel + 1)) ts := by
  rw [objectEntries]
  refine (Runs.eat _).bind ?_
  rintro _ _ (_ | ⟨_, closing⟩)
  case taken => exact .pure (.nil closing)
  refine (Runs.next _).bind ?_
  rintro t others ⟨rfl, met⟩
  refine .lift (.self fun _ => entryKey_faults met) fun key hk =>
    (Runs.eat _).bind fun colon mid hc => ?_
  extract_lets rest
  have entry (value : Expr) (behind : List Lexeme) (he : FormsEntry (t :: others) key value behind) :
      Runs r (fun read rest => FormsEntries (t :: others) read.1 read.2 rest) (rest value) behind := by
    refine (Runs.eat _).bind ?_
    rintro _ _ (_ | ⟨_, comma⟩)
    · refine (Runs.expect _).bind ?_
      rintro _ _ ⟨_, closing⟩
      exact .pure (.last he closing)
    · exact (h.entries r _).bind fun _ _ ho => .pure (.cons he comma ho)
  cases hc with
  | left => exact (Runs.shorthand hk).bind entry
  | taken _ colon => exact (h.expr r _).bind fun value _ hv => entry value _ (.pair hk colon hv)

theorem parts_succ (h : RunsAll fuel) (r : Region) {p : Nat} {cs : List Char} (here : ScansIn r p cs) :
    Answers (Faults r) (FormsParts p cs) (templateParts (fuel + 1) p cs) := by
  have next {q : Nat} {after : List Char}
      (step : ∀ {pos : Nat} {body : List Char}, Scans pos body p cs → Scans pos body q after) :
      Answers (Faults r) (FormsParts q after) (templateParts fuel q after) := by
    obtain ⟨t, body, met, template, scans⟩ := here
    exact h.parts r ⟨t, body, met, template, step scans⟩
  unfold templateParts
  split
  case h_1 => exact .done _ _
  case h_2 => exact .done _ _
  case h_3 rest hn =>
    cases hn
    rename_i pos _ _ _
    cases hc : Delimiter.closeBrace (pos + 1) rest with
    | error opened => exact .unclosed here hc
    | ok found =>
      obtain ⟨inside, after⟩ := found
      have region := (h.region ⟨pos + 2, inside.dropLast⟩).mono fun _ => Faults.hole here hc
      exact region.bind fun e ⟨ts, cut, he⟩ =>
        (next (.hole · hc)).bind fun others ho => .hole hc cut he ho
  case h_4 n pos rest hn =>
    cases hn
    exact (Answers.self fun _ => Faults.escape here).bind fun found he =>
      (next (.escape · he)).bind fun others ho => .escape he ho
  case h_5 n pos c rest noHole noEscape hn =>
    cases hn
    refine (next (.char · noEscape fun dollar brace => ?_)).bind fun others ho => .char ho
    obtain ⟨more, hr⟩ := List.head?_eq_some_iff.1 brace
    exact noHole more dollar hr

theorem region_succ (h : RunsAll fuel) (r : Region) :
    Answers (Faults r) (FormsRegion r) (parseRegion (fuel + 1) r) := by
  rw [parseRegion]
  refine (Answers.self fun _ => Faults.lexing).bind fun ts hts => ?_
  refine (h.expr r ts ⟨ts, hts, List.suffix_rfl⟩).bind fun read hr => ?_
  obtain ⟨e, rest⟩ := read
  obtain ⟨he, tail⟩ := hr
  cases rest with
  | nil => exact ⟨ts, hts, he⟩
  | cons t rest => exact .mismatch _ tail.head

end RunsAll

theorem runsAll (fuel : Nat) : RunsAll fuel := by
  induction fuel with
  | zero => exact runsAll_zero
  | succ fuel h => exact {
      expr := h.expr_succ
      conditional := h.conditional_succ
      binary := h.binary_succ
      binaryTail := fun r least _ _ _ => h.binaryTail_succ r least
      unary := h.unary_succ
      chain := h.chain_succ
      links := fun r _ _ _ => h.links_succ r
      index := fun r _ _ _ _ _ => h.index_succ r
      call := fun r _ _ _ _ _ => h.call_succ r
      list := h.list_succ
      primary := h.primary_succ
      entries := h.entries_succ
      parts := fun r _ _ => h.parts_succ r
      region := h.region_succ }

end Grammar

/-- A region is read as an expression that its tokens form, or ends in one of its faults. -/
theorem Expr.parse_runs (r : Region) :
    Grammar.Answers (Grammar.Faults r) (Grammar.FormsRegion r) (Expr.parse r) :=
  (Grammar.runsAll _).region r

theorem Expr.forms_of_parse {r : Region} {e : Expr} (h : Expr.parse r = .ok e) :
    Grammar.FormsRegion r e := by
  have runs := Expr.parse_runs r
  rwa [h] at runs

theorem Expr.faults_of_parse {r : Region} {fault : Fault} (h : Expr.parse r = .error fault) :
    Grammar.Faults r fault := by
  have runs := Expr.parse_runs r
  rwa [h] at runs

end LiveTemplate
