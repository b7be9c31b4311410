import GrantConsole.Api.Operation
import GrantConsole.Form.Basic
import GrantConsole.Screen.Frame
import GrantConsole.Screen.Rows
import GrantConsole.Widget.Dialog
import GrantConsole.Widget.Table

/-!
# The approvals page

Expenses that wait for a decision stand above the decisions that were taken. A decision moves its
expense from the one list into the other.
-/

namespace GrantConsole

open GrantConsole.Text

/-- The decision on an expense; blank comments are none. -/
def Approval.decide (expense : String) (status : Verdict) (comments : String) : Approval :=
  let comments := trim comments
  { expense := some expense, status, comments := if comments.isEmpty then none else some comments }

end GrantConsole

namespace GrantConsole.Screen

open GrantConsole.Api GrantConsole.Markup GrantConsole.Widget

structure Approvals where
  pending : Cell (Listing Expense) := ⟨{}, []⟩
  decided : Cell (Listing Approval) := ⟨{}, []⟩
  comments : String := ""
deriving Repr, DecidableEq

namespace Approvals

inductive Act
  | approve (expense : String)
  | reject (expense : String)
  | delete (id : String)
  | close
  | confirm
  | comments
deriving Repr, DecidableEq

inductive Call
  | loadPending
  | load
  | decide (expense : String) (status : Verdict) (comments : String)
  | delete (id : String)
deriving Repr, DecidableEq

abbrev Call.Answer : Call → Type
  | loadPending => Page Expense
  | load => Page Approval
  | decide _ _ _ => Approval
  | delete _ => Unit

def Call.operation : (c : Call) → Operation c.Answer
  | loadPending => .pendingExpenses {}
  | load => .list Approval {}
  | decide expense status comments => .create (Approval.decide expense status comments)
  | delete id => .delete Approval id

def pendingRows : Rows Approvals Expense := ⟨pending, fun s pending => { s with pending }⟩

def rows : Rows Approvals Approval := ⟨decided, fun s decided => { s with decided }⟩

def mounted (s : Approvals) (session : Session) : Turn Approvals Call :=
  ⟨rows.update Listing.beginLoad (pendingRows.update Listing.beginLoad s), session,
    [.call .loadPending, .call .load]⟩

def handle (s : Approvals) (session : Session) (act : Act) (entry : Entry) :
    Turn Approvals Call :=
  match act with
  | .approve expense => ⟨s, session, [.call (.decide expense .approved s.comments)]⟩
  | .reject expense => ⟨s, session, [.call (.decide expense .rejected s.comments)]⟩
  | .delete id => ⟨rows.update (fun l => l.openDelete id) s, session, []⟩
  | .close => ⟨rows.update Listing.closeDialog s, session, []⟩
  | .confirm => rows.confirmed .delete s session
  | .comments => ⟨{ s with comments := entry.value }, session, []⟩

/-- The state after a decision was recorded. -/
def record (s : Approvals) (expense : String) (approval : Approval) : Approvals :=
  let s := pendingRows.update (fun l => l.retain fun e => e.id != some expense) s
  { rows.update (fun l => l.upsert approval) s with comments := "" }

def settle (state : Option Approvals) (session : Session) :
    (c : Call) → Except Failure c.Answer → Turn (Option Approvals) Call
  | .loadPending, result => pendingRows.settleLoad state session result
  | .load, result => rows.settleLoad state session result
  | .decide expense status _, result =>
    match (result : Except Failure Approval) with
    | .ok approval =>
      ⟨state.map fun s => record s expense approval, session,
        [success ("Expense " ++ status.spelling ++ ".")]⟩
    | .error e => ⟨state, session, [failure e.message]⟩
  | .delete id, result => rows.settleDelete id "Approval deleted." state session result

def pendingColumns : List (Column Expense) :=
  [⟨"Date", fun e => dayOf e.date⟩, ⟨"Description", Expense.description⟩,
    ⟨"Category", Expense.category⟩, ⟨"Amount", fun e => e.amount.moneyText⟩]

def columns : List (Column Approval) :=
  [⟨"Expense", fun a => a.expense.getD ""⟩, ⟨"Status", fun a => a.status.spelling⟩,
    ⟨"Comments", fun a => a.comments.getD ""⟩, ⟨"Decided", fun a => (a.created.map dayOf).getD ""⟩]

def dialog (s : Approvals) : List (Node Act) :=
  match (rows.listing s).dialog with
  | .confirmDelete _ => [confirmDialog "Delete this approval record?" "Delete" .close .confirm]
  | _ => []

def view (s : Approvals) : Node Act :=
  let waiting := pendingRows.listing s
  let decided := rows.listing s
  frame
    [title "Pending expenses",
      .element "input"
        [.cls "resource-page__comment", .plain "placeholder" "Comment for the next decision",
          .value s.comments]
        [.on .input .comments] []]
    ([table pendingColumns [.normal "Approve" Act.approve, .danger "Reject" Act.reject]
        waiting.items waiting.loading "Nothing awaiting approval.",
      .el "h2" [] [.text "Decisions"],
      table columns [.danger "Delete" Act.delete] decided.items decided.loading
        "No approvals recorded."] ++ dialog s)

end Approvals

end GrantConsole.Screen
