import GrantConsole.Markup.Node
import GrantConsole.Text.Blank

/-!
# Elements in a document

An element is found by what it looks like: its tag, a class, its text, the label around it or its
placeholder. It is found with the elements around it, which hear its events after it, and with its
place in the document, by which it is known again after a change.
-/

namespace GrantConsole.Markup

open GrantConsole.Text

variable {α : Type}

namespace Node

def tag? : Node α → Option String
  | text _ => none
  | element tag _ _ _ => some tag

def attributes : Node α → List Attribute
  | text _ => []
  | element _ attributes _ _ => attributes

def listeners : Node α → List (Listener α)
  | text _ => []
  | element _ _ listeners _ => listeners

def children : Node α → List (Node α)
  | text _ => []
  | element _ _ _ children => children

def isTag (tag : String) (n : Node α) : Bool :=
  n.tag? == some tag

/-- The value of an attribute. -/
def attribute? (name : String) (n : Node α) : Option String :=
  n.attributes.findSome? fun
    | .plain key value => if key = name then some value else none
    | _ => none

def hasFlag (name : String) (n : Node α) : Bool :=
  n.attributes.any fun
    | .flag key on => key == name && on
    | _ => false

/-- The state that a checkbox shows. -/
def isChecked (n : Node α) : Bool :=
  n.attributes.any fun
    | .checked on => on
    | _ => false

/-- The text that an input shows. -/
def shownValue? (n : Node α) : Option String :=
  n.attributes.findSome? fun
    | .value s => some s
    | _ => none

def classes (n : Node α) : List String :=
  ((n.attribute? "class").getD "").splitOn " "

/-- The texts that stand in a node itself. -/
def ownText (n : Node α) : String :=
  String.join <| n.children.filterMap fun
    | text s => some s
    | element .. => none

end Node

/-- An element with those around it, the innermost first, and their places among their siblings. -/
structure Spot (α : Type) where
  path : List Nat
  chain : List (Node α)

namespace Spot

/-- The tags of an element and of those around it. -/
def tags (s : Spot α) : List (Option String) :=
  s.chain.map Node.tag?

end Spot

mutual
/-- All elements from a node on, in the order of the document. -/
def spotsOf (path : List Nat) (chain : List (Node α)) : Node α → List (Spot α)
  | .text _ => []
  | .element tag attributes listeners children =>
    let chain := .element tag attributes listeners children :: chain
    ⟨path, chain⟩ :: spotsAmong path chain 0 children

/-- All elements among siblings, the first of which has an index. -/
def spotsAmong (path : List Nat) (chain : List (Node α)) (index : Nat) :
    List (Node α) → List (Spot α)
  | [] => []
  | node :: nodes =>
    spotsOf (index :: path) chain node ++ spotsAmong path chain (index + 1) nodes
end

/-- All elements of a document. -/
def spots (body : List (Node α)) : List (Spot α) :=
  spotsAmong [] [] 0 body

/-- What an element looks like. -/
structure Look where
  tag : Option String := none
  cls : Option String := none
  /-- The text of a button or a link. -/
  text : Option String := none
  /-- The text of the label around an input. -/
  label : Option String := none
  placeholder : Option String := none
deriving Repr, DecidableEq

namespace Look

def fitsText (wanted : String) (n : Node α) : Bool :=
  (n.isTag "button" || n.isTag "a") && trim n.content == wanted

def isInput (n : Node α) : Bool :=
  n.isTag "input" || n.isTag "select" || n.isTag "textarea"

def fitsLabel (wanted : String) (n : Node α) (around : List (Node α)) : Bool :=
  isInput n && around.any fun a => a.isTag "label" && trim a.ownText == wanted

def fits (look : Look) (s : Spot α) : Bool :=
  match s.chain with
  | [] => false
  | n :: around =>
    look.tag.all (fun tag => n.isTag tag) &&
      look.cls.all (fun cls => n.classes.contains cls) &&
      look.text.all (fun text => fitsText text n) &&
      look.label.all (fun label => fitsLabel label n around) &&
      look.placeholder.all (fun p => n.attribute? "placeholder" == some p)

end Look

/-- The element with a number among those of a look. -/
def find? (body : List (Node α)) (look : Look) (nth : Nat) : Option (Spot α) :=
  ((spots body).filter look.fits)[nth]?

/-- An element that reacts to nothing: it is disabled, or stands in a disabled group. -/
def Spot.isDisabled (s : Spot α) : Bool :=
  match s.chain with
  | [] => false
  | n :: around =>
    (Look.isInput n || n.isTag "button") &&
      (n.hasFlag "disabled" || around.any fun a => a.isTag "fieldset" && a.hasFlag "disabled")

/-- The values of the options in an element. -/
def optionValues (n : Node α) : List String :=
  (spots n.children).filterMap fun s =>
    match s.chain with
    | o :: _ => if o.isTag "option" then o.attribute? "value" else none
    | [] => none

/-- A button that submits the form around it. -/
def isSubmitButton (n : Node α) : Bool :=
  n.isTag "button" && (n.attribute? "type").all fun type => type == "submit"

/-- The form around an element and what is around the form. -/
def formChain : List (Node α) → Option (List (Node α))
  | [] => none
  | n :: around => if n.isTag "form" then some (n :: around) else formChain around

/-- An element that is known from before, as it is now, if it is still there. -/
def Spot.again? (s : Spot α) (body : List (Node α)) : Option (Spot α) :=
  (spots body).find? fun t => t.path == s.path && t.tags == s.tags

end GrantConsole.Markup
