/-!
# Toasts

Short messages in the order in which they came. No more than five are shown: a sixth drives out the
oldest. Each toast has a number of its own, by which it is dismissed.
-/

namespace GrantConsole

inductive ToastKind
  | success
  | error
deriving Repr, DecidableEq

structure Toast where
  id : Nat
  kind : ToastKind
  text : String
deriving Repr, DecidableEq

structure Toasts where
  queue : List Toast := []
  /-- The number of the next toast. -/
  next : Nat := 0
deriving Repr, DecidableEq

namespace Toasts

def capacity : Nat := 5

/-- How long a toast is shown, in thousandths of a second. -/
def lifetime : Nat := 4000

def push (t : Toasts) (kind : ToastKind) (text : String) : Toasts :=
  let queue := t.queue ++ [⟨t.next, kind, text⟩]
  ⟨queue.drop (queue.length - capacity), t.next + 1⟩

def dismiss (t : Toasts) (id : Nat) : Toasts :=
  { t with queue := t.queue.filter fun toast => toast.id != id }

end Toasts

end GrantConsole
