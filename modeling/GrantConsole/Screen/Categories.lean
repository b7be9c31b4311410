import GrantConsole.Api.Operation
import GrantConsole.Form.Basic
import GrantConsole.Screen.Frame
import GrantConsole.Screen.Rows
import GrantConsole.Widget.Dialog
import GrantConsole.Widget.Field
import GrantConsole.Widget.Table

/-!
# The categories page

The categories of expenses are listed, made and deleted.
-/

namespace GrantConsole.Screen

open GrantConsole.Api GrantConsole.Markup GrantConsole.Widget

structure Categories where
  listing : Cell (Listing Category) := ⟨{}, []⟩
deriving Repr, DecidableEq

namespace Categories

inductive Act
  | new
  | delete (id : String)
  | close
  | save
  | confirm
  | name
  | code
  | description
  | active
deriving Repr, DecidableEq

inductive Call
  | load
  | create (category : Category)
  | delete (id : String)
deriving Repr, DecidableEq

abbrev Call.Answer : Call → Type
  | load => Page Category
  | create _ => Category
  | delete _ => Unit

def Call.operation : (c : Call) → Operation c.Answer
  | load => .list Category {}
  | create category => .create category
  | delete id => .delete Category id

def rows : Rows Categories Category := ⟨listing, fun s listing => { s with listing }⟩

def reload (s : Categories) (session : Session) : Turn Categories Call :=
  ⟨rows.update Listing.beginLoad s, session, [.call .load]⟩

def editDraft (s : Categories) (f : Category → Category) : Categories :=
  rows.update (fun l => l.editDraft f) s

def handle (s : Categories) (session : Session) (act : Act) (entry : Entry) :
    Turn Categories Call :=
  match act with
  | .new => ⟨rows.update (fun l => l.openCreate { active := true }) s, session, []⟩
  | .delete id => ⟨rows.update (fun l => l.openDelete id) s, session, []⟩
  | .close => ⟨rows.update Listing.closeDialog s, session, []⟩
  | .save =>
    match (rows.listing s).draft? with
    | none => ⟨s, session, []⟩
    | some category => ⟨s, session, [.call (.create category)]⟩
  | .confirm => rows.confirmed .delete s session
  | .name => ⟨editDraft s fun c => { c with name := entry.value }, session, []⟩
  | .code => ⟨editDraft s fun c => { c with code := entry.value }, session, []⟩
  | .description =>
    ⟨editDraft s fun c => { c with description := nonempty? entry.value }, session, []⟩
  | .active => ⟨editDraft s fun c => { c with active := entry.checked }, session, []⟩

def settle (state : Option Categories) (session : Session) :
    (c : Call) → Except Failure c.Answer → Turn (Option Categories) Call
  | .load, result => rows.settleLoad state session result
  | .create _, result => rows.settleSave reload "Category created." state session result
  | .delete id, result => rows.settleDelete id "Category deleted." state session result

def columns : List (Column Category) :=
  [⟨"Code", Category.code⟩, ⟨"Name", Category.name⟩,
    ⟨"Description", fun c => c.description.getD ""⟩, ⟨"Active", fun c => yesNo c.active⟩]

def form (draft : Category) : Node Act :=
  modal "New category" "" .close
    [textField "Name" "text" "" draft.name .name,
      textField "Code" "text" "" draft.code .code,
      textArea "Description" (draft.description.getD "") .description,
      checkField "Active" draft.active .active,
      saveActions .close "Save" .save]

def dialog (s : Categories) : List (Node Act) :=
  match (rows.listing s).dialog with
  | .closed | .edit _ => []
  | .confirmDelete _ => [confirmDialog "Delete this category?" "Delete" .close .confirm]
  | .create draft => [form draft]

def view (s : Categories) : Node Act :=
  let l := rows.listing s
  frame [title "Categories", primaryButton "New category" .new]
    (table columns [.danger "Delete" Act.delete] l.items l.loading "No categories yet." :: dialog s)

end Categories

end GrantConsole.Screen
