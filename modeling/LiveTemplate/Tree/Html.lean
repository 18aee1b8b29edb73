/-
Trees as HTML. This is the only place where a tree becomes text.
-/
import LiveTemplate.Markup.Tag
import LiveTemplate.Tree.Basic

namespace LiveTemplate

/-- How a character of a text or an attribute value is written. -/
def escapeChar (c : Char) : List Char :=
  if c == '&' then "&amp;".toList
  else if c == '<' then "&lt;".toList
  else if c == '>' then "&gt;".toList
  else if c == '"' then "&quot;".toList
  else if c == '\'' then "&#39;".toList
  else [c]

/-- A text with the characters of markup escaped. -/
def escapeText (s : String) : String :=
  String.ofList (s.toList.flatMap escapeChar)

/-- A value in quotes after a name. -/
def quotedAttribute (name value : String) : String :=
  " " ++ name ++ "=\"" ++ escapeText value ++ "\""

/-- An attribute. -/
def attributeText : String × Option String → String
  | (name, some value) => quotedAttribute name value
  | (name, none) => " " ++ name

/-- The opening tag of an element. -/
def Element.openTag (e : Element) : String :=
  "<" ++ e.tag ++ String.join (e.attrs.map attributeText)
    ++ String.join (e.events.map fun b => quotedAttribute ("on" ++ b.event) b.handler.print) ++ ">"

mutual

/-- A node as HTML; a void element has neither children nor a closing tag. -/
def Node.toHtml : Node → String
  | .element e children =>
    if Markup.isVoid e.tag then e.openTag
    else e.openTag ++ toHtmlAll children ++ "</" ++ e.tag ++ ">"
  | .text t => escapeText t
  | .html markup => markup
  | .block _ children => toHtmlAll children

/-- Nodes as HTML. -/
def toHtmlAll : List Node → String
  | [] => ""
  | n :: rest => n.toHtml ++ toHtmlAll rest

end

end LiveTemplate
