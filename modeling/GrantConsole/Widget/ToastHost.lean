import GrantConsole.Markup.Node
import GrantConsole.Toast.Basic

/-!
# The stack of toasts

Every toast shows its text and a button that dismisses it.
-/

namespace GrantConsole.Widget

open GrantConsole.Markup

variable {α : Type}

def toastClass : ToastKind → String
  | .success => "toast toast--success"
  | .error => "toast toast--error"

def toastNode (dismiss : Nat → α) (toast : Toast) : Node α :=
  .box "div" (toastClass toast.kind)
    [.box "span" "toast__text" [.text toast.text],
      .element "button" [.cls "toast__close", .plain "aria-label" "Dismiss"]
        [.on .click (dismiss toast.id)] [.text "×"]]

def toastHost (dismiss : Nat → α) (toasts : Toasts) : Node α :=
  .el "div" [.cls "toast-host", .plain "role" "status", .plain "aria-live" "polite"]
    (toasts.queue.map (toastNode dismiss))

end GrantConsole.Widget
