import GrantConsole.Console.Tab
import GrantConsole.Markup.Render

/-!
# What is seen of the console

The texts of the parts of the document, what the session keeps, and the place. Two views are told
apart by what has changed between them.
-/

namespace GrantConsole.Console

open GrantConsole.Markup

structure Shot where
  /-- The parts of the document by their names; a part may be missing. -/
  parts : List (String × Option String)
  kept : Option (List (String × String))
  path : Option String
deriving Repr, DecidableEq

namespace Shot

def partNames : List String :=
  ["header", "main", "footer", "toasts"]

/-- Before anything is seen. -/
def nothing (session : Session) : Shot :=
  ⟨partNames.map fun name => (name, none), session.entries, none⟩

/-- The text of a part, every text of which is changed by `f`. -/
def partText (f : String → String) (nodes : List (Node Act)) : Option String :=
  if nodes.isEmpty then none else some (Node.renderAll true (Node.mapTextAll f nodes))

/-- What is seen now. -/
def take (f : String → String) (tab : Tab) : Shot :=
  let parts := [tab.header, [tab.main], tab.footer, [tab.toastHost]]
  ⟨partNames.zip (parts.map (partText f)), tab.session.entries, some tab.location.text⟩

/-- The parts that are not as they were. -/
def changedParts (old new : Shot) : List (String × Option String) :=
  new.parts.filter fun part => !old.parts.contains part

end Shot

end GrantConsole.Console
