import GrantConsole.Api.Operation
import GrantConsole.Form.Basic
import GrantConsole.Screen.Frame
import GrantConsole.Screen.Rows
import GrantConsole.Widget.Dialog
import GrantConsole.Widget.Field
import GrantConsole.Widget.Table

/-!
# The roles page

The roles that users have on the selected grant are listed, assigned and removed.
-/

namespace GrantConsole.Screen

open GrantConsole.Api GrantConsole.Markup GrantConsole.Widget

structure Roles where
  listing : Cell (Listing Role) := ⟨{}, []⟩
  users : List User := []
  /-- The title of the grant that was selected when the page was opened. -/
  scope : String := ""
deriving Repr, DecidableEq

namespace Roles

inductive Act
  | new
  | delete (id : String)
  | close
  | save
  | confirm
  | user
  | type
  | permission (p : String)
  | typed (field : LateField)
deriving Repr, DecidableEq

inductive Call
  | load (grant : String)
  | users
  | assign (role : Role)
  | delete (id : String)
deriving Repr, DecidableEq

abbrev Call.Answer : Call → Type
  | load _ => Page Role
  | users => Page User
  | assign _ => Role
  | delete _ => Unit

def Call.operation : (c : Call) → Operation c.Answer
  | load grant => .grantRoles grant
  | users => .list User {}
  | assign role => .assignRole role.grant role.user role.type role.permissions
  | delete id => .delete Role id

def rows : Rows Roles Role := ⟨listing, fun s listing => { s with listing }⟩

def reload (s : Roles) (session : Session) : Turn Roles Call :=
  match session.selectedGrant? with
  | none => ⟨rows.update (fun l => l.finishLoad (.ok ⟨[], 0⟩)) s, session, []⟩
  | some grant => ⟨rows.update Listing.beginLoad s, session, [.call (.load grant.id)]⟩

def mounted (s : Roles) (session : Session) : Turn Roles Call :=
  let t := reload s session
  { t with commands := t.commands ++ [.call .users] }

def editDraft (s : Roles) (f : Role → Role) : Roles :=
  rows.update (fun l => l.editDraft f) s

/-- The role with the type that a word spells; any other word changes nothing. -/
def withType (word : String) (role : Role) : Role :=
  match RoleType.read word with
  | .ok type => { role with type }
  | .error _ => role

def handle (s : Roles) (session : Session) (act : Act) (entry : Entry) : Turn Roles Call :=
  match act with
  | .new =>
    match session.selectedGrant? with
    | none => ⟨s, session, [failure FormFault.grantMissing.message]⟩
    | some grant => ⟨rows.update (fun l => l.openCreate { grant := grant.id }) s, session, []⟩
  | .delete id => ⟨rows.update (fun l => l.openDelete id) s, session, []⟩
  | .close => ⟨rows.update Listing.closeDialog s, session, []⟩
  | .save =>
    match (rows.listing s).draft? with
    | none => ⟨s, session, []⟩
    | some role =>
      if role.user.isEmpty then ⟨s, session, [failure FormFault.userMissing.message]⟩
      else ⟨s, session, [.call (.assign role)]⟩
  | .confirm => rows.confirmed .delete s session
  | .user => ⟨editDraft s fun r => { r with user := entry.value }, session, []⟩
  | .type => ⟨editDraft s (withType entry.value), session, []⟩
  | .permission p =>
    ⟨editDraft s fun r => { r with permissions := togglePermission r.permissions p entry.checked },
      session, []⟩
  | .typed field => ⟨{ s with listing := s.listing.type field entry.value }, session, []⟩

def settle (state : Option Roles) (session : Session) :
    (c : Call) → Except Failure c.Answer → Turn (Option Roles) Call
  | .load _, result => rows.settleLoad state session result
  | .users, result =>
    match (result : Except Failure (Page User)) with
    | .ok page => ⟨state.map fun s => { s with users := page.items }, session, []⟩
    | .error _ => ⟨state, session, []⟩
  | .assign _, result => rows.settleSave reload "Role assigned." state session result
  | .delete id, result => rows.settleDelete id "Role removed." state session result

def columns : List (Column Role) :=
  [⟨"User", Role.user⟩, ⟨"Role", fun r => r.type.spelling⟩,
    ⟨"Permissions", fun r => ", ".intercalate r.permissions⟩]

/-- A user by name and email, or by email alone. -/
def userLabel (u : User) : String :=
  match u.fullName.bind nonempty? with
  | some name => name ++ " (" ++ u.email ++ ")"
  | none => u.email

def userOptions (users : List User) : List (String × String) :=
  ("", "Choose a user") :: users.map fun u => (u.id, userLabel u)

def typeOptions : List (String × String) :=
  RoleType.all.map fun t => (t.spelling, t.spelling)

def permissionField (held : List String) (permission : String) : Node Act :=
  checkField permission (held.contains permission) (.permission permission)

def form (s : Roles) (draft : Role) : Node Act :=
  modal "Assign role" "" .close
    [selectField "User" (s.listing.shown .user draft.user) draft.user (userOptions s.users)
        (.typed .user) .user,
      selectField "Role" (s.listing.shown .role draft.type.spelling) draft.type.spelling
        typeOptions (.typed .role) .type,
      .box "fieldset" "dialog__permissions"
        (.el "legend" [] [.text "Permissions"] ::
          permissionCatalogue.map (permissionField draft.permissions)),
      saveActions .close "Assign" .save]

def dialog (s : Roles) : List (Node Act) :=
  match (rows.listing s).dialog with
  | .closed | .edit _ => []
  | .confirmDelete _ => [confirmDialog "Remove this role assignment?" "Remove" .close .confirm]
  | .create draft => [form s draft]

def view (s : Roles) : Node Act :=
  let l := rows.listing s
  frame [title "Roles", scopeNode s.scope, primaryButton "Assign role" .new]
    (table columns [.danger "Remove" Act.delete] l.items l.loading "No roles on this grant." ::
      dialog s)

end Roles

end GrantConsole.Screen
