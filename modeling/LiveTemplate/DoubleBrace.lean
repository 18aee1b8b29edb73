/-
The older dialect, which writes its tags between double braces or between a brace and a percent
sign, takes a single brace for text, and has named fragments. It is converted as text: bracket
forms are unified, fragments are put in place of the references to them, and every tag is turned
into the form with single braces.
-/
import LiveTemplate.Error
import LiveTemplate.Text.Region
import LiveTemplate.Text.Search

namespace LiveTemplate.DoubleBrace

open Text

/-- Whether a pattern occurs in a text. -/
def occurs (pattern : String) (cs : List Char) : Bool :=
  (splitAt? pattern.toList cs).isSome

/-- The rest of a text from the first occurrence of a pattern on. -/
def fromFirst? (pattern : String) (cs : List Char) : Option (List Char) :=
  (splitAt? pattern.toList cs).map fun (before, _) => cs.drop before.length

/-- Whether a source is written in the older dialect: it opens a tag and closes one, where a
percent sign may do both. -/
def detect (source : List Char) : Bool :=
  match fromFirst? "\x7b\x7b" source <|> fromFirst? "\x7b%" source with
  | some rest => occurs "\x7d\x7d" rest || occurs "%\x7d" rest
  | none => false

/-- Writes the brackets with a percent sign as double braces, of the same length. -/
def unifyOpen : List Char → List Char
  | '{' :: '%' :: rest => '{' :: '{' :: unifyOpen rest
  | c :: rest => c :: unifyOpen rest
  | [] => []

def unifyClose : List Char → List Char
  | '%' :: '}' :: rest => '}' :: '}' :: unifyClose rest
  | c :: rest => c :: unifyClose rest
  | [] => []

/-! ## Fragments -/

/-- The template around the declarations, and the declared fragments, the last one first. -/
structure Fragments where
  main : List Region
  declared : List (String × Region)

def blockOpen : List Char := "\x7b\x7b#block".toList
def blockClose : List Char := "\x7b\x7b/block\x7d\x7d".toList
def referenceOpen : List Char := "\x7b\x7b>".toList
def tagClose : List Char := "\x7d\x7d".toList

/-- The pieces before and after the first occurrence of a pattern. -/
def splitRegion? (pattern : List Char) (r : Region) : Option (Region × Region) :=
  (splitAt? pattern r.text).map fun (before, _) =>
    (r.take before.length, r.drop (before.length + pattern.length))

/-- Takes the declarations out of a text, at most `fuel` of them. -/
def collect : Nat → Region → Except Fault Fragments
  | 0, here => .ok ⟨[here], []⟩
  | fuel + 1, here =>
    match splitRegion? blockOpen here with
    | none => .ok ⟨[here], []⟩
    | some (before, head) =>
      match splitRegion? tagClose head with
      | none => .error ⟨.unclosedFragmentHead, before.stop, head.start⟩
      | some (name, body) =>
        let title := name.trim.toString
        if title.isEmpty then .error ⟨.missingFragmentName, before.stop, body.start⟩
        else match splitRegion? blockClose body with
          | none => .error ⟨.unclosedFragment title, before.stop, body.start⟩
          | some (body, rest) => do
            let others ← collect fuel rest
            .ok ⟨before :: others.main, others.declared ++ [(title, body)]⟩

/-- Copies a text and puts what `resolve` gives in place of each reference. -/
def expandWith (resolve : String → Span → Except Fault (List Char)) :
    Nat → Region → Except Fault (List Char)
  | 0, here => .ok here.text
  | fuel + 1, here =>
    match splitRegion? referenceOpen here with
    | none => .ok here.text
    | some (before, head) =>
      match splitRegion? tagClose head with
      | none => .error ⟨.unclosedReference, before.stop, head.start⟩
      | some (name, rest) => do
        let body ← resolve name.trim.toString ⟨before.stop, rest.start⟩
        let others ← expandWith resolve fuel rest
        .ok (before.text ++ body ++ others)

/-- The text with the fragments it refers to, whose bodies are expanded `depth` levels deep below
the names on the stack. No fragment may lead to itself. -/
def expand (declared : List (String × Region)) :
    Nat → List String → Region → Except Fault (List Char)
  | 0, _, here => .ok here.text
  | depth + 1, stack, here =>
    expandWith (fun name span =>
      match declared.lookup name with
      | none => .error ⟨.unknownFragment name, span⟩
      | some body =>
        if stack.contains name then .error ⟨.cyclicFragment name, span⟩
        else expand declared depth (name :: stack) body) here.text.length here

/-- The template with every fragment in place. -/
def Fragments.expandAll (f : Fragments) : Except Fault (List Char) :=
  f.main.foldlM (fun out r => (expand f.declared (f.declared.length + 1) [] r).map (out ++ ·)) []

/-! ## Tags -/

/-- Splits a text behind a closing bracket outside of strings; `quote` is the string it is in. -/
def closeTag? (closing : List Char) : Option Char → List Char → Option (List Char × List Char)
  | _, [] => none
  | some q, '\\' :: c :: rest =>
    (closeTag? closing (some q) rest).map fun (inside, rest) => ('\\' :: c :: inside, rest)
  | some q, c :: rest =>
    (closeTag? closing (if c = q then none else some q) rest).map fun (inside, rest) =>
      (c :: inside, rest)
  | none, c :: rest =>
    if c == '"' || c == '\'' then
      (closeTag? closing (some c) rest).map fun (inside, rest) => (c :: inside, rest)
    else if closing.isPrefixOf (c :: rest) then some ([], (c :: rest).drop closing.length)
    else (closeTag? closing none rest).map fun (inside, rest) => (c :: inside, rest)

/-- The first word of a text and the rest without blanks around it. -/
def splitWord (cs : List Char) : List Char × List Char :=
  let word := cs.takeWhile (!isBlank ·)
  (word, trim (cs.drop word.length))

/-- A binding without the bars around it. -/
def stripBars (binding : List Char) : List Char :=
  match binding with
  | '|' :: rest => if rest.getLast? == some '|' then rest.dropLast else binding
  | _ => binding

/-- Text between single braces. -/
def braced (before : String) (body : List Char) : List Char :=
  '{' :: before.toList ++ body ++ ['}']

/-- The head of a loop, whose variable is `item` if none is given. -/
def eachTag (rest : List Char) : List Char :=
  let (collection, binding) := match splitAtLast? " as ".toList rest with
    | some (collection, binding) => (trim collection, trim (stripBars (trim binding)))
    | none => (rest, "item".toList)
  braced "#each " (collection ++ " as ".toList ++ binding)

/-- A tag with double braces in the form with single ones; `span` is that of its inside. -/
def convertTag (inside : List Char) (span : Span) : Except Fault (List Char) :=
  let tag := trim inside
  let (word, rest) := splitWord tag
  let keyword := String.ofList word
  if tag.head? == some '!' then .ok []
  else if tag.head? == some '&' then .ok (braced "@html " (trim (tag.drop 1)))
  else if keyword = "html" ∧ !rest.isEmpty then .ok (braced "@html " rest)
  else if keyword = "json" ∧ !rest.isEmpty then .ok (braced "@json " rest)
  else if ["#if", "#unless", "#for"].contains keyword then .ok (braced (keyword ++ " ") rest)
  else if keyword = "#each" then .ok (eachTag rest)
  else if keyword = "else" ∧ rest.isEmpty then .ok (braced ":else" [])
  else if keyword = "else" ∧ (splitWord rest).1 = ['i', 'f'] then .ok (braced ":else " rest)
  else if ["/if", "/unless", "/each", "/for"].contains keyword ∧ rest.isEmpty then
    .ok (braced keyword [])
  else if (word.head?.map fun c => c == '#' || c == '/' || c == '>').getD false then
    .error ⟨.unknownLegacyDirective keyword, span⟩
  else if tag.head? == some '{' || tag.getLast? == some '}' then .ok (braced " " (tag ++ [' ']))
  else .ok (braced "" tag)

/-- Converts every tag of a text at offset `pos` and escapes single braces. -/
def convert : Nat → Nat → List Char → Except Fault (List Char)
  | 0, _, _ => .ok []
  | _ + 1, _, [] => .ok []
  | fuel + 1, pos, '{' :: '{' :: '{' :: rest =>
    match closeTag? "\x7d\x7d\x7d".toList none rest with
    | none => .error ⟨.unclosedDoubleBrace, pos, pos + 3⟩
    | some (inside, after) => do
      let others ← convert fuel (pos + 6 + byteLength inside) after
      .ok (braced "@html " (trim inside) ++ others)
  | fuel + 1, pos, '{' :: '{' :: rest =>
    match closeTag? tagClose none rest with
    | none => .error ⟨.unclosedDoubleBrace, pos, pos + 2⟩
    | some (inside, after) => do
      let tag ← convertTag inside ⟨pos + 2, pos + 2 + byteLength inside⟩
      let others ← convert fuel (pos + 4 + byteLength inside) after
      .ok (tag ++ others)
  | fuel + 1, pos, '{' :: rest => (convert fuel (pos + 1) rest).map ('\\' :: '{' :: ·)
  | fuel + 1, pos, c :: rest => (convert fuel (pos + c.utf8Size) rest).map (c :: ·)

/-- A source of the older dialect in the form with single braces; any other source stays. Errors
refer to the text of the step that found them. -/
def normalize (source : String) : Except Error String := do
  if !detect source.toList then return source
  let unified := unifyClose (unifyOpen source.toList)
  let inUnified := Error.ofFault (String.ofList unified)
  let fragments ← (collect unified.length ⟨0, unified⟩).mapError inUnified
  let expanded ← fragments.expandAll.mapError inUnified
  let converted ← (convert expanded.length 0 expanded).mapError
    (Error.ofFault (String.ofList expanded))
  return String.ofList converted

end LiveTemplate.DoubleBrace
