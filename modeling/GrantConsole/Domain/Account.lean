import GrantConsole.Domain.Choice
import GrantConsole.Record.Shape

/-!
# Accounts

Users, what is sent to make and to change one, the roles that users have on grants with their
permissions, and the token that signing in gives.
-/

namespace GrantConsole

open GrantConsole.Record

structure User where
  /-- Empty for a user that has no id yet. -/
  id : String := ""
  fullName : Option String := none
  email : String := ""
  created : Option String := none
  active : Bool := false
  superuser : Bool := false
deriving Repr, DecidableEq, Inhabited

/-- What is sent to make a user. -/
structure NewUser where
  email : String
  password : String
  fullName : Option String
  active : Bool
  superuser : Bool
deriving Repr, DecidableEq, Inhabited

/-- What is sent to change a user. -/
structure UserUpdate where
  email : String
  fullName : Option String
  active : Bool
  superuser : Bool
deriving Repr, DecidableEq, Inhabited

def User.toUpdate (u : User) : UserUpdate :=
  ⟨u.email, u.fullName, u.active, u.superuser⟩

/-- What a user may do on a grant. -/
structure Role where
  id : Option String := none
  grant : String := ""
  user : String := ""
  type : RoleType := .user
  permissions : List String := []
  created : Option String := none
  updated : Option String := none
deriving Repr, DecidableEq, Inhabited

/-- The permissions that a role may hold, in the order in which they are shown. -/
def permissionCatalogue : List String :=
  ["approve_expenses", "create_rules", "manage_roles", "view_budget", "view_expenses",
    "edit_expenses", "submit_expenses", "manage_grant", "archive_grant", "view_grant", "edit_grant"]

/--
The permissions after one is given or taken: those of the catalogue that were there, in its order,
with the one in question as it is now to be.
-/
def togglePermission (permissions : List String) (permission : String) (enabled : Bool) :
    List String :=
  permissionCatalogue.filter fun p =>
    if p = permission then enabled else permissions.contains p

/-- The token that signing in gives. -/
structure Token where
  access : String
  type : String
deriving Repr, DecidableEq, Inhabited

def RoleType.shape : Shape RoleType := .choice RoleType.spelling RoleType.all

def User.shape : Shape User :=
  .record "User"
    (.cons "id" .text .required <|
      .cons "full_name" (.optional .text) .nullable <|
      .cons "email" .text .required <|
      .cons "created_at" (.optional .text) .omittable <|
      .cons "is_active" .flag (.default true) <|
      .cons "is_superuser" .flag (.default false) .nil)
    (fun (id, fullName, email, created, active, superuser, ()) =>
      ⟨id, fullName, email, created, active, superuser⟩)
    (fun u => (u.id, u.fullName, u.email, u.created, u.active, u.superuser, ()))

def NewUser.shape : Shape NewUser :=
  .record "NewUser"
    (.cons "email" .text .required <|
      .cons "password" .text .required <|
      .cons "full_name" (.optional .text) .named <|
      .cons "is_active" .flag .required <|
      .cons "is_superuser" .flag .required .nil)
    (fun (email, password, fullName, active, superuser, ()) =>
      ⟨email, password, fullName, active, superuser⟩)
    (fun u => (u.email, u.password, u.fullName, u.active, u.superuser, ()))

def UserUpdate.shape : Shape UserUpdate :=
  .record "UserUpdate"
    (.cons "email" .text .required <|
      .cons "full_name" (.optional .text) .named <|
      .cons "is_active" .flag .required <|
      .cons "is_superuser" .flag .required .nil)
    (fun (email, fullName, active, superuser, ()) => ⟨email, fullName, active, superuser⟩)
    (fun u => (u.email, u.fullName, u.active, u.superuser, ()))

def Role.shape : Shape Role :=
  .record "Role"
    (.cons "id" (.optional .text) .omittable <|
      .cons "grant_id" .text .required <|
      .cons "user_id" .text .required <|
      .cons "role_type" RoleType.shape .required <|
      .cons "permissions" (.list .text) (.default []) <|
      .cons "created_at" (.optional .text) .omittable <|
      .cons "updated_at" (.optional .text) .omittable .nil)
    (fun (id, grant, user, type, permissions, created, updated, ()) =>
      ⟨id, grant, user, type, permissions, created, updated⟩)
    (fun r => (r.id, r.grant, r.user, r.type, r.permissions, r.created, r.updated, ()))

def Token.shape : Shape Token :=
  .record "Token"
    (.cons "access_token" .text .required <|
      .cons "token_type" .text (.default "bearer") .nil)
    (fun (access, type, ()) => ⟨access, type⟩)
    (fun t => (t.access, t.type, ()))

instance : Shaped RoleType := ⟨RoleType.shape⟩
instance : Shaped User := ⟨User.shape⟩
instance : Shaped NewUser := ⟨NewUser.shape⟩
instance : Shaped UserUpdate := ⟨UserUpdate.shape⟩
instance : Shaped Role := ⟨Role.shape⟩
instance : Shaped Token := ⟨Token.shape⟩

end GrantConsole
