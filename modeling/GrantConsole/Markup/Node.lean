/-!
# Documents

A document is a tree of texts and elements. An element has attributes, two of which show a property
that the program keeps in step with its state, and listeners, each of which names the act that an
event brings about.
-/

namespace GrantConsole.Markup

inductive Event
  | click
  | input
  | change
  | submit
  | keydown
deriving Repr, DecidableEq

inductive Attribute
  | plain (name value : String)
  /-- An attribute that is there or not. -/
  | flag (name : String) (on : Bool)
  /-- The text that an input shows. -/
  | value (s : String)
  /-- The state that a checkbox shows. -/
  | checked (on : Bool)
deriving Repr, DecidableEq

inductive Listener (α : Type)
  | on (event : Event) (act : α)
  /-- Hears the Escape key only. -/
  | onEscape (act : α)
  /-- Keeps an event from the elements around. -/
  | stop (event : Event)
deriving Repr, DecidableEq

inductive Node (α : Type)
  | text (s : String)
  | element (tag : String) (attributes : List Attribute) (listeners : List (Listener α))
      (children : List (Node α))
deriving Repr, Inhabited

namespace Attribute

def cls (names : String) : Attribute :=
  plain "class" names

def disabled (on : Bool) : Attribute :=
  flag "disabled" on

end Attribute

namespace Node

variable {α β : Type}

/-- An element without listeners. -/
def el (tag : String) (attributes : List Attribute) (children : List (Node α)) : Node α :=
  element tag attributes [] children

/-- An element with a class and without listeners. -/
def box (tag cls : String) (children : List (Node α)) : Node α :=
  element tag [.cls cls] [] children

/-- A button with a class that brings about an act. -/
def button (cls label : String) (act : α) : Node α :=
  element "button" [.cls cls] [.on .click act] [text label]

/-- A button with a class and a type that does not submit. -/
def plainButton (cls label : String) (act : α) : Node α :=
  element "button" [.plain "type" "button", .cls cls] [.on .click act] [text label]

def link (cls href label : String) : Node α :=
  element "a" [.cls cls, .plain "href" href] [] [text label]

end Node

def Listener.map {α β : Type} (f : α → β) : Listener α → Listener β
  | on event act => on event (f act)
  | onEscape act => onEscape (f act)
  | stop event => stop event

mutual
def Node.map {α β : Type} (f : α → β) : Node α → Node β
  | .text s => .text s
  | .element tag attributes listeners children =>
    .element tag attributes (listeners.map fun l => l.map f) (Node.mapAll f children)

def Node.mapAll {α β : Type} (f : α → β) : List (Node α) → List (Node β)
  | [] => []
  | node :: nodes => node.map f :: Node.mapAll f nodes
end

mutual
/-- The texts of a node and of all that is in it, joined. -/
def Node.content {α : Type} : Node α → String
  | .text s => s
  | .element _ _ _ children => Node.contentAll children

def Node.contentAll {α : Type} : List (Node α) → String
  | [] => ""
  | node :: nodes => node.content ++ Node.contentAll nodes
end

mutual
/-- The node with every text changed. -/
def Node.mapText {α : Type} (f : String → String) : Node α → Node α
  | .text s => .text (f s)
  | .element tag attributes listeners children =>
    .element tag attributes listeners (Node.mapTextAll f children)

def Node.mapTextAll {α : Type} (f : String → String) : List (Node α) → List (Node α)
  | [] => []
  | node :: nodes => node.mapText f :: Node.mapTextAll f nodes
end

end GrantConsole.Markup
