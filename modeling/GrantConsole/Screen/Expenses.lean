import GrantConsole.Api.Operation
import GrantConsole.Form.Basic
import GrantConsole.Screen.Frame
import GrantConsole.Screen.Rows
import GrantConsole.Widget.Dialog
import GrantConsole.Widget.Field
import GrantConsole.Widget.Table

/-!
# The expenses page

The expenses of the selected grant are listed, recorded and deleted. The server lists the expenses
of all grants, so the page keeps those of its own.
-/

namespace GrantConsole.Screen

open GrantConsole.Api GrantConsole.Markup GrantConsole.Widget

structure Expenses where
  listing : Cell (Listing Expense) := ⟨{}, []⟩
  categories : List Category := []
  amount : String := ""
  /-- The title of the grant that was selected when the page was opened. -/
  scope : String := ""
deriving Repr, DecidableEq

/-- The expenses of one grant among those of a page. -/
def expensesOf (page : Page Expense) (grant : String) : Page Expense :=
  let items := page.items.filter fun e => e.grant == grant
  ⟨items, Int64.ofNat items.length⟩

namespace Expenses

inductive Act
  | new
  | delete (id : String)
  | close
  | save
  | confirm
  | amount
  | date
  | description
  | category
  | invoice
  | typed (field : LateField)
deriving Repr, DecidableEq

inductive Call
  | load (grant : String)
  | categories
  | create (expense : Expense)
  | delete (id : String)
deriving Repr, DecidableEq

abbrev Call.Answer : Call → Type
  | load _ => Page Expense
  | categories => Page Category
  | create _ => Expense
  | delete _ => Unit

def Call.operation : (c : Call) → Operation c.Answer
  | load _ => .list Expense {}
  | categories => .list Category {}
  | create expense => .create expense
  | delete id => .delete Expense id

def rows : Rows Expenses Expense := ⟨listing, fun s listing => { s with listing }⟩

def reload (s : Expenses) (session : Session) : Turn Expenses Call :=
  match session.selectedGrant? with
  | none => ⟨rows.update (fun l => l.finishLoad (.ok ⟨[], 0⟩)) s, session, []⟩
  | some grant => ⟨rows.update Listing.beginLoad s, session, [.call (.load grant.id)]⟩

def mounted (s : Expenses) (session : Session) : Turn Expenses Call :=
  let t := reload s session
  { t with commands := t.commands ++ [.call .categories] }

def editDraft (s : Expenses) (f : Expense → Expense) : Expenses :=
  rows.update (fun l => l.editDraft f) s

def handle (s : Expenses) (session : Session) (act : Act) (entry : Entry) : Turn Expenses Call :=
  match act with
  | .new =>
    match session.selectedGrant? with
    | none => ⟨s, session, [failure FormFault.grantMissing.message]⟩
    | some grant =>
      ⟨rows.update (fun l => l.openCreate { grant := grant.id }) { s with amount := "" }, session,
        []⟩
  | .delete id => ⟨rows.update (fun l => l.openDelete id) s, session, []⟩
  | .close => ⟨rows.update Listing.closeDialog s, session, []⟩
  | .save =>
    match readAmountText s.amount with
    | .error fault => ⟨s, session, [failure fault.message]⟩
    | .ok amount =>
      match (rows.listing s).draft? with
      | none => ⟨s, session, []⟩
      | some draft =>
        ⟨s, session, [.call (.create { draft with amount, date := startOfDay draft.date })]⟩
  | .confirm => rows.confirmed .delete s session
  | .amount => ⟨{ s with amount := entry.value }, session, []⟩
  | .date => ⟨editDraft s fun e => { e with date := entry.value }, session, []⟩
  | .description => ⟨editDraft s fun e => { e with description := entry.value }, session, []⟩
  | .category => ⟨editDraft s fun e => { e with category := entry.value }, session, []⟩
  | .invoice => ⟨editDraft s fun e => { e with invoice := nonempty? entry.value }, session, []⟩
  | .typed field => ⟨{ s with listing := s.listing.type field entry.value }, session, []⟩

def settle (state : Option Expenses) (session : Session) :
    (c : Call) → Except Failure c.Answer → Turn (Option Expenses) Call
  | .load grant, result =>
    let result : Except Failure (Page Expense) := result
    rows.settleLoad state session (result.map fun page => expensesOf page grant)
  | .categories, result =>
    match (result : Except Failure (Page Category)) with
    | .ok page => ⟨state.map fun s => { s with categories := page.items }, session, []⟩
    | .error _ => ⟨state, session, []⟩
  | .create _, result => rows.settleSave reload "Expense recorded." state session result
  | .delete id, result => rows.settleDelete id "Expense deleted." state session result

def columns : List (Column Expense) :=
  [⟨"Date", fun e => dayOf e.date⟩, ⟨"Description", Expense.description⟩,
    ⟨"Category", Expense.category⟩, ⟨"Invoice", fun e => e.invoice.getD ""⟩,
    ⟨"Amount", fun e => e.amount.moneyText⟩]

/-- The categories that can be chosen: those in use. -/
def categoryOptions (categories : List Category) : List (String × String) :=
  ("", "Choose a category") ::
    (categories.filter Category.active).map fun c => (c.code, c.name)

def form (s : Expenses) (draft : Expense) : Node Act :=
  modal "New expense" "" .close
    [textField "Amount" "text" "" s.amount .amount,
      textField "Date" "date" "" (dayOf draft.date) .date,
      textField "Description" "text" "" draft.description .description,
      selectField "Category" (s.listing.shown .category draft.category) draft.category
        (categoryOptions s.categories) (.typed .category) .category,
      textField "Invoice number" "text" "" (draft.invoice.getD "") .invoice,
      saveActions .close "Save" .save]

def dialog (s : Expenses) : List (Node Act) :=
  match (rows.listing s).dialog with
  | .closed | .edit _ => []
  | .confirmDelete _ => [confirmDialog "Delete this expense?" "Delete" .close .confirm]
  | .create draft => [form s draft]

def view (s : Expenses) : Node Act :=
  let l := rows.listing s
  frame [title "Expenses", scopeNode s.scope, primaryButton "New expense" .new]
    (table columns [.danger "Delete" Act.delete] l.items l.loading "No expenses for this grant." ::
      dialog s)

end Expenses

end GrantConsole.Screen
