import GrantConsole.Markup.Node

/-!
# Dialogs

A dialog lies on a backdrop. A click on the backdrop or the Escape key closes it; a click inside of
it does not reach the backdrop.
-/

namespace GrantConsole.Widget

open GrantConsole.Markup

variable {α : Type}

def modal (title cls : String) (close : α) (children : List (Node α)) : Node α :=
  .element "div" [.cls "dialog-backdrop"] [.on .click close]
    [.element "div" [.cls ("dialog " ++ cls), .plain "tabindex" "0"]
      [.stop .click, .onEscape close]
      (.el "h2" [] [.text title] :: children)]

/-- The two buttons at the foot of a dialog. -/
def dialogActions (close : α) (confirmClass confirmLabel : String) (confirm : α) : Node α :=
  .box "div" "dialog__actions"
    [.button "btn" "Cancel" close, .button confirmClass confirmLabel confirm]

/-- The buttons of a dialog that saves its draft. -/
def saveActions (close : α) (label : String) (save : α) : Node α :=
  dialogActions close "btn btn--primary" label save

/-- The question whether to go on. -/
def confirmDialog (message confirmLabel : String) (cancel confirm : α) : Node α :=
  modal "Are you sure?" "dialog--confirm" cancel
    [.box "p" "dialog__message" [.text message],
      dialogActions cancel "btn btn--danger" confirmLabel confirm]

end GrantConsole.Widget
