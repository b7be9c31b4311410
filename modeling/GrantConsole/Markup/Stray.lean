import GrantConsole.Markup.Find

/-!
# Stray properties

A property can be set on an element where the program itself never sets it: a text on a checkbox, a
check on a line of text. It shows on the element for as long as the element is in the document.
-/

namespace GrantConsole.Markup

variable {α : Type}

structure Stray where
  /-- The place of the element below the root of its document, the innermost index first. -/
  path : List Nat
  tags : List (Option String)
  property : Attribute
deriving Repr, DecidableEq

/-- Two attributes that show the same property. -/
def Attribute.sameProperty : Attribute → Attribute → Bool
  | value _, value _ => true
  | checked _, checked _ => true
  | _, _ => false

/-- Adds a property to the element at a place, unless the element shows that property itself. -/
def Node.adorn (a : Attribute) : List Nat → Node α → Node α
  | _, .text s => .text s
  | [], .element tag attributes listeners children =>
    let own := attributes.any a.sameProperty
    .element tag (if own then attributes else attributes ++ [a]) listeners children
  | i :: path, .element tag attributes listeners children =>
    .element tag attributes listeners (children.modify i fun n => n.adorn a path)

namespace Stray

/-- The document with a stray property in it. -/
def shownIn (root : Node α) (stray : Stray) : Node α :=
  root.adorn stray.property stray.path.reverse

/-- The element of a stray property is still in the document. -/
def isIn (root : Node α) (stray : Stray) : Bool :=
  (spotsOf [] [] root).any fun s => s.path == stray.path && s.tags == stray.tags

/-- The same property of the same element. -/
def replaces (new old : Stray) : Bool :=
  new.path == old.path && new.tags == old.tags && new.property.sameProperty old.property

/-- Sets a stray property. -/
def set (stray : Stray) (strays : List Stray) : List Stray :=
  stray :: strays.filter fun old => !stray.replaces old

end Stray

end GrantConsole.Markup
