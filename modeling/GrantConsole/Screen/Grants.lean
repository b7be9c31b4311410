import GrantConsole.Api.Operation
import GrantConsole.Form.Basic
import GrantConsole.Screen.Frame
import GrantConsole.Screen.Rows
import GrantConsole.Widget.Dialog
import GrantConsole.Widget.Field
import GrantConsole.Widget.Table

/-!
# The grants page

Grants are listed, made, changed and deleted. The grant that an operator chooses, and one that was
just made, becomes the grant that the other pages are about.
-/

namespace GrantConsole.Screen

open GrantConsole.Api GrantConsole.Markup GrantConsole.Widget

structure Grants where
  listing : Cell (Listing Grant) := ⟨{}, []⟩
  /-- The total amount as it is typed. -/
  amount : String := ""
deriving Repr, DecidableEq

namespace Grants

inductive Act
  | new
  | select (id : String)
  | edit (id : String)
  | delete (id : String)
  | close
  | save
  | confirm
  | title
  | agency
  | start
  | finish
  | amount
  | status
  | description
deriving Repr, DecidableEq

inductive Call
  | load
  | create (grant : Grant)
  | replace (id : String) (grant : Grant)
  | delete (id : String)
deriving Repr, DecidableEq

abbrev Call.Answer : Call → Type
  | load => Page Grant
  | create _ => Grant
  | replace _ _ => Grant
  | delete _ => Unit

def Call.operation : (c : Call) → Operation c.Answer
  | load => .list Grant {}
  | create grant => .create grant
  | replace id grant => .replace id grant
  | delete id => .delete Grant id

def rows : Rows Grants Grant := ⟨listing, fun s listing => { s with listing }⟩

def reload (s : Grants) (session : Session) : Turn Grants Call :=
  ⟨rows.update Listing.beginLoad s, session, [.call .load]⟩

def editDraft (s : Grants) (f : Grant → Grant) : Grants :=
  rows.update (fun l => l.editDraft f) s

/-- The call that saves a draft: a grant in the edit dialog is replaced, any other is made. -/
def saveCall (mode : DialogMode) (draft : Grant) : Call :=
  let grant := { draft with start := startOfDay draft.start, finish := startOfDay draft.finish }
  match mode, grant.id with
  | .edit, some id => .replace id grant
  | _, _ => .create grant

def handle (s : Grants) (session : Session) (act : Act) (entry : Entry) : Turn Grants Call :=
  match act with
  | .new => ⟨rows.update (fun l => l.openCreate {}) { s with amount := "" }, session, []⟩
  | .select id =>
    match (rows.listing s).find? id with
    | some grant => ⟨s, session.selectGrant id grant.title, [.goto "/expenses"]⟩
    | none => ⟨s, session, []⟩
  | .edit id =>
    let (listing, opened) := (rows.listing s).openEdit id
    let s := rows.update (fun _ => listing) s
    match opened, listing.draft? with
    | true, some grant => ⟨{ s with amount := grant.total.plainText }, session, []⟩
    | _, _ => ⟨s, session, []⟩
  | .delete id => ⟨rows.update (fun l => l.openDelete id) s, session, []⟩
  | .close => ⟨rows.update Listing.closeDialog s, session, []⟩
  | .save =>
    match readAmountText s.amount with
    | .error fault => ⟨s, session, [failure fault.message]⟩
    | .ok total =>
      let s := editDraft s fun g => { g with total }
      match (rows.listing s).draft? with
      | none => ⟨s, session, []⟩
      | some draft => ⟨s, session, [.call (saveCall (rows.listing s).dialog.mode draft)]⟩
  | .confirm => rows.confirmed .delete s session
  | .title => ⟨editDraft s fun g => { g with title := entry.value }, session, []⟩
  | .agency => ⟨editDraft s fun g => { g with agency := entry.value }, session, []⟩
  | .start => ⟨editDraft s fun g => { g with start := entry.value }, session, []⟩
  | .finish => ⟨editDraft s fun g => { g with finish := entry.value }, session, []⟩
  | .amount => ⟨{ s with amount := entry.value }, session, []⟩
  | .status => ⟨editDraft s fun g => { g with status := entry.value }, session, []⟩
  | .description =>
    ⟨editDraft s fun g => { g with description := nonempty? entry.value }, session, []⟩

/-- A grant that was just made is selected, even if the page is gone. -/
def selectMade (session : Session) : Except Failure Grant → Session
  | .ok grant =>
    match grant.id with
    | some id => session.selectGrant id grant.title
    | none => session
  | .error _ => session

def settle (state : Option Grants) (session : Session) :
    (c : Call) → Except Failure c.Answer → Turn (Option Grants) Call
  | .load, result => rows.settleLoad state session result
  | .create _, result =>
    rows.settleSave reload "Grant created." state (selectMade session result) result
  | .replace _ _, result => rows.settleSave reload "Grant updated." state session result
  | .delete id, result => rows.settleDelete id "Grant deleted." state session result

def columns : List (Column Grant) :=
  [⟨"Title", Grant.title⟩, ⟨"Agency", Grant.agency⟩, ⟨"Start", fun g => dayOf g.start⟩,
    ⟨"End", fun g => dayOf g.finish⟩, ⟨"Total", fun g => g.total.moneyText⟩,
    ⟨"Status", Grant.status⟩]

def actions : List (RowAction Act) :=
  [.normal "Select" .select, .normal "Edit" .edit, .danger "Delete" .delete]

def form (heading : String) (amount : String) (draft : Grant) : Node Act :=
  modal heading "" .close
    [textField "Title" "text" "" draft.title .title,
      textField "Funding agency" "text" "" draft.agency .agency,
      textField "Start date" "date" "" (dayOf draft.start) .start,
      textField "End date" "date" "" (dayOf draft.finish) .finish,
      textField "Total amount" "text" "" amount .amount,
      textField "Status" "text" "" draft.status .status,
      textArea "Description" (draft.description.getD "") .description,
      saveActions .close "Save" .save]

def dialog (s : Grants) : List (Node Act) :=
  match (rows.listing s).dialog with
  | .closed => []
  | .confirmDelete _ =>
    [confirmDialog "Delete this grant? Its expenses, rules, and roles go with it." "Delete" .close
      .confirm]
  | .create draft => [form "New grant" s.amount draft]
  | .edit draft => [form "Edit grant" s.amount draft]

def view (s : Grants) : Node Act :=
  let l := rows.listing s
  frame [title "Grants", primaryButton "New grant" .new]
    (table columns actions l.items l.loading "No grants yet." :: dialog s)

end Grants

end GrantConsole.Screen
