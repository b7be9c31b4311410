import GrantConsole.Markup.Node
import GrantConsole.Text.Blank

/-!
# Written documents

The canonical text of a document: attributes in order, no blank texts, a class without blanks at its
ends. A live document also shows its properties, as attributes of their own.
-/

namespace GrantConsole.Markup

open GrantConsole.Text

/-- A character of a text. -/
def escapeChar (c : Char) : List Char :=
  if c = '&' then "&amp;".toList
  else if c = '<' then "&lt;".toList
  else if c = '>' then "&gt;".toList
  else [c]

/-- A character of an attribute's value. -/
def escapeValueChar (c : Char) : List Char :=
  if c = '"' then "&quot;".toList else escapeChar c

def escape (s : String) : String :=
  String.ofList (s.toList.flatMap escapeChar)

def escapeValue (s : String) : String :=
  String.ofList (s.toList.flatMap escapeValueChar)

def assignment (name value : String) : String :=
  name ++ "=\"" ++ escapeValue value ++ "\""

/-- What shows of an attribute, if anything does. -/
def Attribute.shown? (live : Bool) : Attribute → Option String
  | .plain name content =>
    some (assignment name (if name = "class" then trim content else content))
  | .flag name on => if on then some name else none
  | .value s => if live then some (assignment "prop:value" s) else none
  | .checked on =>
    if live then some (assignment "prop:checked" (if on then "true" else "false")) else none

/-- Puts a text in its place among sorted ones. -/
def insertSorted (s : String) : List String → List String
  | [] => [s]
  | t :: ts => if s < t then s :: t :: ts else t :: insertSorted s ts

def sortTexts (texts : List String) : List String :=
  texts.foldr insertSorted []

def renderAttributes (live : Bool) (attributes : List Attribute) : String :=
  String.join ((sortTexts (attributes.filterMap (Attribute.shown? live))).map fun s => " " ++ s)

/-- The elements that never hold anything. -/
def voidTags : List String :=
  ["area", "base", "br", "col", "embed", "hr", "img", "input", "link", "meta", "source", "track",
    "wbr"]

mutual
def Node.render {α : Type} (live : Bool) : Node α → String
  | .text s => if isBlankText s then "" else escape s
  | .element tag attributes _ children =>
    let start := "<" ++ tag ++ renderAttributes live attributes ++ ">"
    if voidTags.contains tag then start
    else start ++ Node.renderAll live children ++ "</" ++ tag ++ ">"

def Node.renderAll {α : Type} (live : Bool) : List (Node α) → String
  | [] => ""
  | node :: nodes => node.render live ++ Node.renderAll live nodes
end

end GrantConsole.Markup
