/-
Pages read back. A plain reader of HTML takes a page apart again: tags stand between angle brackets,
values between double quotes, five characters may be written as entities, and a void element is not
closed. Whatever strings a tree holds in its texts, values and handlers, reading its page gives the
tree back, with the blocks opened and the texts joined.
-/
import LiveTemplate.Tree.Html
import Mathlib.Tactic

namespace LiveTemplate

open Text Markup

namespace Page

/-! ## Pages -/

/-- What a page shows: texts, and elements with their attributes in order. -/
inductive Tree where
  | text (text : String)
  | element (tag : String) (attrs : List (String × Option String)) (children : List Tree)

/-- Texts joined: an empty one is dropped, neighbours are one. -/
def merge : List Tree → List Tree
  | [] => []
  | .text s :: rest => match merge rest with
    | .text t :: more => .text (s ++ t) :: more
    | trees => if s = "" then trees else .text s :: trees
  | e :: rest => e :: merge rest

/-! ## Entities -/

/-- A text with its entities put back. -/
def decode : List Char → List Char
  | '&' :: 'a' :: 'm' :: 'p' :: ';' :: rest => '&' :: decode rest
  | '&' :: 'l' :: 't' :: ';' :: rest => '<' :: decode rest
  | '&' :: 'g' :: 't' :: ';' :: rest => '>' :: decode rest
  | '&' :: 'q' :: 'u' :: 'o' :: 't' :: ';' :: rest => '"' :: decode rest
  | '&' :: '#' :: '3' :: '9' :: ';' :: rest => '\'' :: decode rest
  | c :: rest => c :: decode rest
  | [] => []

/-- The text that raw characters of a page stand for. -/
def decodeText (raw : List Char) : String := String.ofList (decode raw)

/-! ## The reader -/

/-- What a reader is in the middle of. -/
inductive Mode where
  /-- In a text. -/
  | text (raw : List Char)
  /-- After `<`. -/
  | bracket
  /-- In the name of a closing tag. -/
  | closing (name : List Char)
  /-- In the name of an opening tag. -/
  | opening (name : List Char)
  /-- Before the name of an attribute. -/
  | gap (tag : String) (attrs : List (String × Option String))
  /-- In the name of an attribute. -/
  | name (tag : String) (attrs : List (String × Option String)) (name : List Char)
  /-- After the `=` of an attribute. -/
  | equals (tag : String) (attrs : List (String × Option String)) (name : List Char)
  /-- In the value of an attribute. -/
  | value (tag : String) (attrs : List (String × Option String)) (name raw : List Char)
  /-- After the value of an attribute. -/
  | valued (tag : String) (attrs : List (String × Option String))

/-- An element whose closing tag is still to come, and what stands before it. -/
structure Frame where
  tag : String
  attrs : List (String × Option String)
  before : List Tree

/-- The open elements, the innermost first, and what was read in the innermost one. -/
structure Reader where
  frames : List Frame
  done : List Tree
  mode : Mode

/-- The characters that end a name. -/
def delimiters : List Char := [' ', '<', '>', '/', '=', '"']

/-- Trees with a text after them. -/
def withText (done : List Tree) (text : String) : List Tree :=
  if text = "" then done else done ++ [.text text]

namespace Reader

/-- At the end of an opening tag: a void element is complete. -/
def enter (r : Reader) (tag : String) (attrs : List (String × Option String)) : Reader :=
  if isVoid tag then { r with done := r.done ++ [.element tag attrs []], mode := .text [] }
  else ⟨⟨tag, attrs, r.done⟩ :: r.frames, [], .text []⟩

/-- At the end of a closing tag, which must be the one of the innermost open element. -/
def leave (r : Reader) (tag : String) : Option Reader :=
  match r.frames with
  | [] => none
  | f :: outer =>
    if f.tag = tag then some ⟨outer, f.before ++ [.element f.tag f.attrs r.done], .text []⟩ else none

/-- A name goes on until a delimiter. -/
def extend (r : Reader) (mode : Mode) (c : Char) : Option Reader :=
  if c ∈ delimiters then none else some { r with mode }

/-- Reads one character. -/
def step (r : Reader) (c : Char) : Option Reader :=
  match r.mode with
  | .text raw =>
    if c = '<' then some { r with done := withText r.done (decodeText raw), mode := .bracket }
    else some { r with mode := .text (raw ++ [c]) }
  | .bracket => if c = '/' then some { r with mode := .closing [] } else r.extend (.opening [c]) c
  | .closing name =>
    if c = '>' then r.leave (String.ofList name) else r.extend (.closing (name ++ [c])) c
  | .opening name =>
    if c = ' ' then some { r with mode := .gap (String.ofList name) [] }
    else if c = '>' then some (r.enter (String.ofList name) [])
    else r.extend (.opening (name ++ [c])) c
  | .gap tag attrs => r.extend (.name tag attrs [c]) c
  | .name tag attrs name =>
    if c = '=' then some { r with mode := .equals tag attrs name }
    else if c = ' ' then some { r with mode := .gap tag (attrs ++ [(String.ofList name, none)]) }
    else if c = '>' then some (r.enter tag (attrs ++ [(String.ofList name, none)]))
    else r.extend (.name tag attrs (name ++ [c])) c
  | .equals tag attrs name =>
    if c = '"' then some { r with mode := .value tag attrs name [] } else none
  | .value tag attrs name raw =>
    if c = '"' then
      some { r with mode := .valued tag (attrs ++ [(String.ofList name, some (decodeText raw))]) }
    else some { r with mode := .value tag attrs name (raw ++ [c]) }
  | .valued tag attrs =>
    if c = ' ' then some { r with mode := .gap tag attrs }
    else if c = '>' then some (r.enter tag attrs)
    else none

/-- Reads characters one by one. -/
def run (r : Reader) (cs : List Char) : Option Reader := cs.foldlM step r

/-- The page at the end of the characters, where all elements are closed. -/
def finish (r : Reader) : Option (List Tree) :=
  match r.frames, r.mode with
  | [], .text raw => some (withText r.done (decodeText raw))
  | _, _ => none

end Reader

/-- Reads a page. -/
def read (page : String) : Option (List Tree) :=
  (Reader.run ⟨[], [], .text []⟩ page.toList).bind Reader.finish

def isSmallLetter (c : Char) : Bool := 'a' ≤ c && c ≤ 'z'

/-- The characters after the first one of an element's name. -/
def isSmallNameChar (c : Char) : Bool := isSmallLetter c || isAsciiDigit c || c == '_' || c == '-'

/-- A name of an element: a small letter, then small letters, digits, `_` and `-`. -/
def isTagName (name : String) : Bool :=
  match name.toList with
  | [] => false
  | c :: rest => isSmallLetter c && rest.all isSmallNameChar

/-- A name of an attribute or event: one that is not empty, of the characters of identifiers and `-`. -/
def isAttributeName (name : String) : Bool :=
  !name.toList.isEmpty && name.toList.all isAttributeNameChar

end Page

/-- The attributes of an element as a page shows them, the handlers of its events at the end. -/
def Element.shownAttrs (e : Element) : List (String × Option String) :=
  e.attrs ++ e.events.map fun b => ("on" ++ b.event, some b.handler.print)

mutual

/-- What a page shows of a node: blocks are opened; markup is not looked at. -/
def Node.shown : Node → List Page.Tree
  | .element e children => [.element e.tag e.shownAttrs (Page.merge (shownAll children))]
  | .text t => [.text t]
  | .html _ => []
  | .block _ children => shownAll children

/-- What a page shows of nodes, before texts are joined. -/
def shownAll : List Node → List Page.Tree
  | [] => []
  | n :: rest => n.shown ++ shownAll rest

end

mutual

/-- A node without markup whose names can be read and whose void elements have no children. The
strings in its texts, values and handlers are any. -/
def Node.Nameable : Node → Prop
  | .element e children =>
    Page.isTagName e.tag = true ∧ (∀ a ∈ e.attrs, Page.isAttributeName a.1 = true) ∧
      (∀ b ∈ e.events, Page.isAttributeName b.event = true) ∧
      (isVoid e.tag = true → children = []) ∧ NameableAll children
  | .text _ => True
  | .html _ => False
  | .block _ children => NameableAll children

/-- Nodes of this kind. -/
def NameableAll : List Node → Prop
  | [] => True
  | n :: rest => n.Nameable ∧ NameableAll rest

end

namespace Page

/-! ## Joined texts -/

theorem merge_empty (trees : List Tree) : merge (.text "" :: trees) = merge trees := by
  rw [merge]
  split <;> simp_all

theorem merge_text_text (s t : String) (trees : List Tree) :
    merge (.text s :: .text t :: trees) = merge (.text (s ++ t) :: trees) := by
  rw [merge, merge, merge]
  rcases merge trees with _ | ⟨_ | _, _⟩
  all_goals
    by_cases ht : t = ""
    · simp [ht]
    · simp [ht, String.append_eq_empty_iff, String.append_assoc]

theorem merge_text_element (s tag : String) (attrs : List (String × Option String))
    (children trees : List Tree) :
    merge (.text s :: .element tag attrs children :: trees) =
      withText [] s ++ .element tag attrs children :: merge trees := by
  have element : merge (.element tag attrs children :: trees) =
      .element tag attrs children :: merge trees := rfl
  rw [merge, element, withText]
  by_cases hs : s = "" <;> simp [hs]

/-! ## Escaped texts -/

theorem decode_escapeChar (c : Char) (rest : List Char) :
    decode (escapeChar c ++ rest) = c :: decode rest := by
  unfold escapeChar
  split_ifs with amp lt gt quote mark
  · rw [eq_of_beq amp]; rfl
  · rw [eq_of_beq lt]; rfl
  · rw [eq_of_beq gt]; rfl
  · rw [eq_of_beq quote]; rfl
  · rw [eq_of_beq mark]; rfl
  · have amp : c ≠ '&' := by simpa using amp
    rw [List.singleton_append, decode] <;> simp [amp]

theorem decodeText_escapeText (s : String) : decodeText (escapeText s).toList = s := by
  have all (cs : List Char) : decode (cs.flatMap escapeChar) = cs := by
    induction cs with
    | nil => rfl
    | cons c cs ih => rw [List.flatMap_cons, decode_escapeChar, ih]
  rw [decodeText, escapeText, String.toList_ofList, all, String.ofList_toList]

/-- Neither an angle bracket nor a quote is left in an escaped text. -/
theorem not_mem_escapeText (s : String) :
    '<' ∉ (escapeText s).toList ∧ '"' ∉ (escapeText s).toList := by
  have char (c : Char) : '<' ∉ escapeChar c ∧ '"' ∉ escapeChar c := by
    unfold escapeChar
    split_ifs with amp lt gt quote mark
    · decide
    · decide
    · decide
    · decide
    · decide
    · have lt : '<' ≠ c := fun h => lt (beq_iff_eq.2 h.symm)
      have quote : '"' ≠ c := fun h => quote (beq_iff_eq.2 h.symm)
      simp [lt, quote]
  simp only [escapeText, String.toList_ofList, List.mem_flatMap, not_exists, not_and]
  exact ⟨fun c _ => (char c).1, fun c _ => (char c).2⟩

theorem escapeText_append (s t : String) : escapeText (s ++ t) = escapeText s ++ escapeText t := by
  simp [escapeText]

/-! ## Names -/

/-- A name has a first character, and no delimiter. -/
structure IsName (name : List Char) : Prop where
  nonempty : name ≠ []
  free : ∀ c ∈ name, c ∉ delimiters

theorem not_mem_of_test {p : Char → Bool} {marks : List Char} (hp : marks.all (!p ·) = true)
    {c : Char}
    (h : p c = true) : c ∉ marks := by
  intro mark
  have no := List.all_eq_true.1 hp c mark
  rw [h] at no
  cases no

theorem IsName.of_attribute {name : String} (h : isAttributeName name = true) :
    IsName name.toList := by
  simp only [isAttributeName, Bool.and_eq_true, Bool.not_eq_true', List.isEmpty_eq_false_iff,
    List.all_eq_true] at h
  exact ⟨h.1, fun c hc => not_mem_of_test (by decide +kernel) (h.2 c hc)⟩

theorem IsName.of_tag {name : String} (h : isTagName name = true) : IsName name.toList := by
  unfold isTagName at h
  split at h
  · cases h
  case h_2 c rest chars =>
    rw [Bool.and_eq_true, List.all_eq_true] at h
    rw [chars]
    refine ⟨by simp, fun d hd => ?_⟩
    rcases List.mem_cons.1 hd with rfl | hd
    · exact not_mem_of_test (p := isSmallLetter) (by decide) h.1
    · exact not_mem_of_test (p := isSmallNameChar) (by decide) (h.2 d hd)

theorem IsName.on {event : String} (h : IsName event.toList) : IsName ("on" ++ event).toList := by
  rw [String.toList_append]
  refine ⟨by simp, fun c hc => ?_⟩
  rcases List.mem_append.1 hc with hc | hc
  · have small : "on".toList.all isSmallLetter = true := by decide
    exact not_mem_of_test (p := isSmallLetter) (by decide) (List.all_eq_true.1 small c hc)
  · exact h.free c hc

/-! ## Steps of the reader -/

namespace Reader

theorem run_append (r : Reader) (a b : List Char) :
    r.run (a ++ b) = (r.run a).bind fun r => r.run b := by
  simp [run, List.foldlM_append]

theorem run_cons (r : Reader) (c : Char) (cs : List Char) :
    r.run (c :: cs) = (r.step c).bind fun r => r.run cs := by
  simp [run]

/-- Characters that only make longer what the reader is in. -/
theorem run_longer {r : Reader} {m : List Char → Mode} {cs : List Char}
    (h : ∀ acc, ∀ c ∈ cs, step { r with mode := m acc } c = some { r with mode := m (acc ++ [c]) })
    (acc : List Char) : run { r with mode := m acc } cs =
      some { r with mode := m (acc ++ cs) } := by
  induction cs generalizing acc with
  | nil => simp [run]
  | cons c cs ih =>
    rw [run_cons, h acc c (by simp), Option.bind_some, ih fun acc d hd => h acc d (by simp [hd])]
    simp

theorem run_text {r : Reader} {raw cs : List Char} (h : '<' ∉ cs) :
    run { r with mode := .text raw } cs = some { r with mode := .text (raw ++ cs) } :=
  run_longer (fun acc c hc => by
    have : c ≠ '<' := by rintro rfl; exact h hc
    simp [step, this]) raw

theorem run_value {r : Reader} {tag : String} {attrs : List (String × Option String)}
    {name raw cs : List Char} (h : '"' ∉ cs) :
    run { r with mode := .value tag attrs name raw } cs =
      some { r with mode := .value tag attrs name (raw ++ cs) } :=
  run_longer (fun acc c hc => by
    have : c ≠ '"' := by rintro rfl; exact h hc
    simp [step, this]) raw

theorem ne_of_not_mem_delimiters {c : Char} (h : c ∉ delimiters) :
    c ≠ ' ' ∧ c ≠ '>' ∧ c ≠ '/' ∧ c ≠ '=' := by
  refine ⟨?_, ?_, ?_, ?_⟩
  all_goals
    rintro rfl
    exact h (by decide)

/-- The characters of a name make it longer. -/
theorem step_name {c : Char} (h : c ∉ delimiters) (r : Reader) (tag : String)
    (attrs : List (String × Option String)) (name : List Char) :
    step { r with mode := .opening name } c = some { r with mode := .opening (name ++ [c]) } ∧
      step { r with mode := .closing name } c = some { r with mode := .closing (name ++ [c]) } ∧
      step { r with mode := .name tag attrs name } c =
        some { r with mode := .name tag attrs (name ++ [c]) } := by
  obtain ⟨blank, stop, slash, sign⟩ := ne_of_not_mem_delimiters h
  simp [step, extend, h, blank, stop, sign]

/-- In an opening tag, where a blank or the end of the tag may follow. -/
structure InTag (base r : Reader) (tag : String) (attrs : List (String × Option String))
    : Prop where
  blank : r.step ' ' = some { base with mode := .gap tag attrs }
  stop : r.step '>' = some (base.enter tag attrs)

variable {base r : Reader} {tag : String} {attrs : List (String × Option String)}

/-- The name of an opening tag. -/
theorem run_opening (base : Reader) (h : IsName tag.toList) :
    ∃ r, run { base with mode := .bracket } tag.toList = some r ∧ InTag base r tag [] := by
  obtain ⟨c, rest, chars⟩ := List.exists_cons_of_ne_nil h.nonempty
  have free := h.free
  rw [chars, List.forall_mem_cons] at free
  have first : step { base with mode := .bracket } c = some { base with mode := .opening [c] } := by
    simp [step, (ne_of_not_mem_delimiters free.1).2.2.1, extend, free.1]
  refine ⟨{ base with mode := .opening tag.toList }, ?_, ?_, ?_⟩
  · rw [chars, run_cons, first, Option.bind_some,
      run_longer (m := .opening) fun acc d hd => (step_name (free.2 d hd) base tag [] acc).1,
      List.singleton_append]
  · simp [step]
  · simp [step, enter]

/-- The name of an attribute. -/
theorem InTag.run_name (h : InTag base r tag attrs) {name : String} (hn : IsName name.toList) :
    r.run (" " ++ name).toList = some { base with mode := .name tag attrs name.toList } := by
  obtain ⟨c, rest, chars⟩ := List.exists_cons_of_ne_nil hn.nonempty
  have free := hn.free
  rw [chars, List.forall_mem_cons] at free
  have first : step { base with mode := .gap tag attrs } c =
      some { base with mode := .name tag attrs [c] } := by
    simp [step, extend, free.1]
  rw [String.toList_append, show " ".toList = [' '] from rfl, List.singleton_append, run_cons,
    h.blank, Option.bind_some, chars, run_cons, first, Option.bind_some,
    run_longer (m := .name tag attrs) fun acc d hd =>
      (step_name (free.2 d hd) base tag attrs acc).2.2,
    List.singleton_append]

/-- An attribute with a value. -/
theorem InTag.run_quotedAttribute (h : InTag base r tag attrs) {name : String}
    (hn : IsName name.toList) (value : String) :
    ∃ r', r.run (quotedAttribute name value).toList = some r' ∧
      InTag base r' tag (attrs ++ [(name, some value)]) := by
  refine ⟨{ base with mode := .valued tag (attrs ++ [(name, some value)]) }, ?_, ?_, ?_⟩
  · rw [quotedAttribute, String.append_assoc, String.append_assoc, String.toList_append, run_append,
      h.run_name hn, Option.bind_some, String.toList_append, run_append]
    have sign : run { base with mode := .name tag attrs name.toList } "=\"".toList =
        some { base with mode := .value tag attrs name.toList [] } := by
      simp [run, step]
    rw [sign, Option.bind_some, String.toList_append, run_append,
      run_value (not_mem_escapeText value).2, Option.bind_some, List.nil_append]
    simp [run, step, decodeText_escapeText]
  · simp [step]
  · simp [step, enter]

theorem InTag.run_attributeText (h : InTag base r tag attrs) {a : String × Option String}
    (ha : IsName a.1.toList) :
    ∃ r', r.run (attributeText a).toList = some r' ∧ InTag base r' tag (attrs ++ [a]) := by
  obtain ⟨name, _ | value⟩ := a
  · refine ⟨_, h.run_name ha, ?_, ?_⟩
    · simp [step]
    · simp [step, enter]
  · exact h.run_quotedAttribute ha value

/-- The attributes of a tag, one after the other. -/
theorem InTag.run_attributes {α : Type} (write : α → String) (shown : α → String × Option String)
    {xs : List α}
    (one : ∀ {r attrs}, ∀ x ∈ xs, InTag base r tag attrs → ∃ r', r.run (write x).toList = some r' ∧
      InTag base r' tag (attrs ++ [shown x])) :
    ∀ {r attrs}, InTag base r tag attrs → ∃ r',
      r.run (String.join (xs.map write)).toList = some r' ∧
      InTag base r' tag (attrs ++ xs.map shown) := by
  induction xs with
  | nil =>
    intro r attrs h
    exact ⟨r, by simp [run], by simpa using h⟩
  | cons x xs ih =>
    intro r attrs h
    obtain ⟨r₁, run₁, h₁⟩ := one x (by simp) h
    obtain ⟨r₂, run₂, h₂⟩ := ih (fun y hy => one y (by simp [hy])) h₁
    refine ⟨r₂, ?_, by simpa using h₂⟩
    rw [String.toList_join] at run₂ ⊢
    rw [List.map_cons, List.flatMap_cons, run_append, run₁, Option.bind_some, run₂]

/-- An opening tag. -/
theorem run_openTag {e : Element} (ht : IsName e.tag.toList) (ha : ∀ a ∈ e.attrs, IsName a.1.toList)
    (he : ∀ b ∈ e.events, IsName b.event.toList) (frames : List Frame) (done : List Tree)
    (s : String) :
    run ⟨frames, done, .text (escapeText s).toList⟩ e.openTag.toList =
      some (enter ⟨frames, withText done s, .bracket⟩ e.tag e.shownAttrs) := by
  have bracket : run ⟨frames, done, .text (escapeText s).toList⟩ "<".toList =
      some ⟨frames, withText done s, .bracket⟩ := by
    simp [run, step, decodeText_escapeText]
  obtain ⟨r₁, run₁, h₁⟩ := run_opening ⟨frames, withText done s, .bracket⟩ ht
  obtain ⟨r₂, run₂, h₂⟩ := InTag.run_attributes attributeText id
    (fun a mem h => h.run_attributeText (ha a mem)) h₁
  obtain ⟨r₃, run₃, h₃⟩ := InTag.run_attributes
    (fun b : EventBinding => quotedAttribute ("on" ++ b.event) b.handler.print)
    (fun b => ("on" ++ b.event, some b.handler.print))
    (fun b mem h => h.run_quotedAttribute (he b mem).on _) h₂
  have stop : r₃.run ">".toList =
      some (enter ⟨frames, withText done s, .bracket⟩ e.tag e.shownAttrs) := by
    rw [show ">".toList = ['>'] from rfl, run_cons, h₃.stop]
    simp [run, Element.shownAttrs]
  simp only [Element.openTag, String.toList_append, run_append, bracket, Option.bind_some, run₁,
    run₂, run₃, stop]

/-- A closing tag. -/
theorem run_closeTag {tag : String} (ht : IsName tag.toList) (frames : List Frame)
    (before done : List Tree) (attrs : List (String × Option String)) (s : String) :
    run ⟨⟨tag, attrs, before⟩ :: frames, done, .text (escapeText s).toList⟩
      ("</" ++ tag ++ ">").toList =
      some ⟨frames, before ++ [.element tag attrs (withText done s)], .text []⟩ := by
  have slash : run ⟨⟨tag, attrs, before⟩ :: frames, done, .text (escapeText s).toList⟩ "</".toList =
      some ⟨⟨tag, attrs, before⟩ :: frames, withText done s, .closing []⟩ := by
    simp [run, step, decodeText_escapeText]
  have name : run ⟨⟨tag, attrs, before⟩ :: frames, withText done s, .closing []⟩ tag.toList =
      some ⟨⟨tag, attrs, before⟩ :: frames, withText done s, .closing tag.toList⟩ :=
    run_longer (r := ⟨⟨tag, attrs, before⟩ :: frames, withText done s, .bracket⟩) (m := .closing)
      (fun acc d hd => (step_name (ht.free d hd) _ tag attrs acc).2.1) []
  rw [String.toList_append, String.toList_append, run_append, run_append, slash, Option.bind_some,
    name, Option.bind_some]
  simp [run, step, leave]

end Reader

/-! ## Trees -/

/-- The trees of a level and the text after them, with a tree after these. -/
def add (read : List Tree × String) : Tree → List Tree × String
  | .text t => (read.1, read.2 ++ t)
  | tree => (withText read.1 read.2 ++ [tree], "")

theorem withText_append (done : List Tree) (s : String) :
    withText done s = done ++ withText [] s := by
  unfold withText
  split <;> simp

/-- What is read tree by tree is joined in the end. -/
theorem withText_foldl_add (trees : List Tree) (done : List Tree) (s : String) :
    withText (trees.foldl add (done, s)).1 (trees.foldl add (done, s)).2 =
      done ++ merge (.text s :: trees) := by
  induction trees generalizing done s with
  | nil =>
    rw [withText_append]
    by_cases hs : s = "" <;> simp [withText, merge, hs]
  | cons tree trees ih =>
    cases tree with
    | text t => rw [List.foldl_cons, add, ih, merge_text_text]
    | element tag attrs children =>
      rw [List.foldl_cons, add, ih, merge_empty, merge_text_element, withText_append]
      · simp
      · simp

end Page

open Page

/-- The reader after trees and a text. -/
def Page.Reader.reading (frames : List Frame) (read : List Page.Tree × String) : Reader :=
  ⟨frames, read.1, .text (escapeText read.2).toList⟩

mutual

/-- Reading a node adds what it shows. -/
theorem Node.run_toHtml (frames : List Frame) (read : List Page.Tree × String) :
    ∀ (n : Node), n.Nameable → (Reader.reading frames read).run n.toHtml.toList =
      some (.reading frames (n.shown.foldl add read))
  | .element e children, h => by
    obtain ⟨tag, attrs, events, void, inner⟩ := h
    have tag := IsName.of_tag tag
    have opened := Reader.run_openTag tag (fun a ha => .of_attribute (attrs a ha))
      (fun b hb => .of_attribute (events b hb)) frames read.1 read.2
    rw [Node.toHtml]
    split
    case isTrue isVoid =>
      rw [Reader.reading, opened]
      simp [Reader.enter, isVoid, Node.shown, void isVoid, add, Reader.reading, shownAll, merge,
        escapeText]
    case isFalse notVoid =>
      have body := run_toHtmlAll (⟨e.tag, e.shownAttrs, withText read.1 read.2⟩ :: frames) ([], "")
        children inner
      have entered : Reader.enter ⟨frames, withText read.1 read.2, .bracket⟩ e.tag e.shownAttrs =
          .reading (⟨e.tag, e.shownAttrs, withText read.1 read.2⟩ :: frames) ([], "") := by
        simp [Reader.enter, notVoid, Reader.reading, escapeText]
      rw [String.append_assoc, String.append_assoc, String.append_assoc, String.toList_append,
        Reader.run_append, Reader.reading, opened, Option.bind_some, entered, String.toList_append,
        Reader.run_append, body, Option.bind_some, Reader.reading, ← String.append_assoc,
        Reader.run_closeTag tag, withText_foldl_add, merge_empty]
      simp [Node.shown, add, Reader.reading, escapeText]
  | .text t, _ => by
    rw [Node.toHtml, Reader.reading, Reader.run_text (r := ⟨frames, read.1, .bracket⟩)
      (not_mem_escapeText t).1]
    simp [Node.shown, add, Reader.reading, escapeText_append]
  | .html _, h => nomatch h
  | .block _ children, h => run_toHtmlAll frames read children h

/-- Reading nodes adds what they show. -/
theorem run_toHtmlAll (frames : List Frame) (read : List Page.Tree × String) :
    ∀ (nodes : List Node), NameableAll nodes →
      (Reader.reading frames read).run (toHtmlAll nodes).toList =
      some (.reading frames ((shownAll nodes).foldl add read))
  | [], _ => by simp [toHtmlAll, Reader.run, shownAll]
  | n :: rest, ⟨first, others⟩ => by
    rw [toHtmlAll, String.toList_append, Reader.run_append, n.run_toHtml frames read first,
      Option.bind_some, run_toHtmlAll frames _ rest others, shownAll, List.foldl_append]

end

/-- Reading the page of nodes gives what they show. -/
theorem read_toHtmlAll {nodes : List Node} (h : NameableAll nodes) :
    Page.read (toHtmlAll nodes) = some (merge (shownAll nodes)) := by
  have start : (⟨[], [], .text []⟩ : Reader) = .reading [] ([], "") := by
    simp [Reader.reading, escapeText]
  have texts := withText_foldl_add (shownAll nodes) [] ""
  rw [Page.read, start, run_toHtmlAll [] ([], "") nodes h, Option.bind_some, Reader.finish,
    Reader.reading]
  simp only [decodeText_escapeText, texts, List.nil_append, merge_empty]

/-- A text, a value and a handler that try to end what they stand in. -/
theorem read_toHtmlAll_forged :
    let link : Element :=
      ⟨"a", none, [("title", some "\"><script>"), ("hidden", none)], [⟨"click", .inline "go('\"')"⟩], []⟩
    let line : Element := ⟨"br", none, [], [], []⟩
    let nodes : List Node :=
      [.element link [.text "</a>", .block ⟨0, 0, 1, []⟩ [.text "", .text "&lt;"], .element line []]]
    NameableAll nodes ∧ Page.read (toHtmlAll nodes) =
      some [.element "a" [("title", some "\"><script>"), ("hidden", none), ("onclick", some "go('\"')")]
        [.text "</a>&lt;", .element "br" [] []]] := by
  intro link line nodes
  have names : isTagName "a" = true ∧ isTagName "br" = true ∧ isAttributeName "title" = true ∧
      isAttributeName "hidden" = true ∧ isAttributeName "click" = true ∧ isVoid "a" = false := by
    decide +kernel
  have named : NameableAll nodes := by
    simp [nodes, link, line, NameableAll, Node.Nameable, names]
  exact ⟨named, read_toHtmlAll named⟩

end LiveTemplate
