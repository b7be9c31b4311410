import GrantConsole.Markup.Node

/-!
# The frame of a page

A section with a header, under which a page shows its content.
-/

namespace GrantConsole.Screen

open GrantConsole.Markup

variable {α : Type}

def frame (header content : List (Node α)) : Node α :=
  .box "section" "resource-page" (.box "header" "resource-page__header" header :: content)

def title (s : String) : Node α :=
  .el "h1" [] [.text s]

/-- The title of the grant that a page is about. -/
def scopeNode (s : String) : Node α :=
  .box "span" "resource-page__scope" [.text s]

/-- The button for what is mostly done on a page. -/
def primaryButton (label : String) (act : α) : Node α :=
  .button "btn btn--primary" label act

end GrantConsole.Screen
