import GrantConsole.Api.Operation
import GrantConsole.Form.Basic
import GrantConsole.Screen.Frame
import GrantConsole.Screen.Rows
import GrantConsole.Widget.Dialog
import GrantConsole.Widget.Field
import GrantConsole.Widget.Table

/-!
# The users page

Users are listed, made, changed and deleted. A user is fetched anew before it is changed.
-/

namespace GrantConsole.Screen

open GrantConsole.Api GrantConsole.Markup GrantConsole.Widget

structure Users where
  listing : Cell (Listing User) := ⟨{}, []⟩
  password : String := ""
deriving Repr, DecidableEq

namespace Users

inductive Act
  | new
  | edit (id : String)
  | delete (id : String)
  | close
  | save
  | confirm
  | email
  | fullName
  | password
  | active
  | superuser
deriving Repr, DecidableEq

inductive Call
  | load
  | fetch (id : String)
  | create (user : NewUser)
  | update (id : String) (update : UserUpdate)
  | delete (id : String)
deriving Repr, DecidableEq

abbrev Call.Answer : Call → Type
  | load => Page User
  | fetch _ => User
  | create _ => User
  | update _ _ => User
  | delete _ => Unit

def Call.operation : (c : Call) → Operation c.Answer
  | load => .list User {}
  | fetch id => .fetch User id
  | create user => .createUser user
  | update id change => .updateUser id change
  | delete id => .delete User id

def rows : Rows Users User := ⟨listing, fun s listing => { s with listing }⟩

def reload (s : Users) (session : Session) : Turn Users Call :=
  ⟨rows.update Listing.beginLoad s, session, [.call .load]⟩

def editDraft (s : Users) (f : User → User) : Users :=
  rows.update (fun l => l.editDraft f) s

/-- What saving the open draft does: a call, or a word about what is missing. -/
def saveCommand (s : Users) : List (Command Call) :=
  match (rows.listing s).dialog with
  | .edit draft => [.call (.update draft.id draft.toUpdate)]
  | .create draft =>
    match newUser draft s.password with
    | .ok user => [.call (.create user)]
    | .error fault => [failure fault.message]
  | _ => []

def handle (s : Users) (session : Session) (act : Act) (entry : Entry) : Turn Users Call :=
  match act with
  | .new =>
    ⟨rows.update (fun l => l.openCreate { active := true }) { s with password := "" }, session, []⟩
  | .edit id => ⟨s, session, [.call (.fetch id)]⟩
  | .delete id => ⟨rows.update (fun l => l.openDelete id) s, session, []⟩
  | .close => ⟨rows.update Listing.closeDialog s, session, []⟩
  | .save => ⟨s, session, saveCommand s⟩
  | .confirm => rows.confirmed .delete s session
  | .email => ⟨editDraft s fun u => { u with email := entry.value }, session, []⟩
  | .fullName => ⟨editDraft s fun u => { u with fullName := nonempty? entry.value }, session, []⟩
  | .password => ⟨{ s with password := entry.value }, session, []⟩
  | .active => ⟨editDraft s fun u => { u with active := entry.checked }, session, []⟩
  | .superuser => ⟨editDraft s fun u => { u with superuser := entry.checked }, session, []⟩

/-- A fetched user takes its row, and the edit dialog opens on the row that was asked for. -/
def openFetched (id : String) (user : User) (l : Listing User) : Listing User :=
  ((l.upsert user).openEdit id).1

def settle (state : Option Users) (session : Session) :
    (c : Call) → Except Failure c.Answer → Turn (Option Users) Call
  | .load, result => rows.settleLoad state session result
  | .fetch id, result =>
    match (result : Except Failure User) with
    | .ok user => ⟨state.map (rows.update (openFetched id user)), session, []⟩
    | .error e => ⟨state, session, [failure ("Could not load user: " ++ e.message)]⟩
  | .create _, result => rows.settleSave reload "User created." state session result
  | .update _ _, result => rows.settleSave reload "User updated." state session result
  | .delete id, result => rows.settleDelete id "User deleted." state session result

def columns : List (Column User) :=
  [⟨"Email", User.email⟩, ⟨"Name", fun u => u.fullName.getD ""⟩,
    ⟨"Active", fun u => yesNo u.active⟩, ⟨"Superuser", fun u => yesNo u.superuser⟩,
    ⟨"Created", fun u => (u.created.map dayOf).getD ""⟩]

/-- The input of a password; where there is none, an empty text keeps its place. -/
def passwordField : Option String → Node Act
  | some password => textField "Password" "password" "" password .password
  | none => .text ""

/-- The form of a user; a password is asked for only when one is made. -/
def form (heading : String) (password : Option String) (draft : User) : Node Act :=
  modal heading "" .close
    [textField "Email" "email" "" draft.email .email,
      textField "Full name" "text" "" (draft.fullName.getD "") .fullName,
      passwordField password,
      checkField "Active" draft.active .active,
      checkField "Superuser" draft.superuser .superuser,
      saveActions .close "Save" .save]

def dialog (s : Users) : List (Node Act) :=
  match (rows.listing s).dialog with
  | .closed => []
  | .confirmDelete _ => [confirmDialog "Delete this user?" "Delete" .close .confirm]
  | .create draft => [form "New user" (some s.password) draft]
  | .edit draft => [form "Edit user" none draft]

def view (s : Users) : Node Act :=
  let l := rows.listing s
  frame [title "Users", primaryButton "New user" .new]
    (table columns [.normal "Edit" Act.edit, .danger "Delete" Act.delete] l.items l.loading
        "No users." :: dialog s)

end Users

end GrantConsole.Screen
