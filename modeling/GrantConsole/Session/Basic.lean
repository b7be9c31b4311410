/-!
# The session

What the browser keeps of an operator's session: texts under keys, among them the token and the
grant that the operator has chosen to work on. Where nothing can be kept, every key is missing and
every change is lost.
-/

namespace GrantConsole

structure Session where
  /-- The texts under their keys, or nothing where none can be kept. Setting a text keeps the keys
  in increasing order. -/
  entries : Option (List (String × String))
deriving Repr, DecidableEq

/-- The grant that the pages of one grant are about. -/
structure SelectedGrant where
  id : String
  title : String
deriving Repr, DecidableEq

namespace Session

def empty : Session := ⟨some []⟩

/-- A session that keeps nothing. -/
def forgetful : Session := ⟨none⟩

def get? (s : Session) (key : String) : Option String :=
  s.entries.bind fun entries => entries.lookup key

def remove (s : Session) (key : String) : Session :=
  ⟨s.entries.map fun entries => entries.filter fun e => e.1 != key⟩

/-- Entries with one put in, which takes the place of one with its key. -/
def insertEntry (key value : String) : List (String × String) → List (String × String)
  | [] => [(key, value)]
  | (k, v) :: rest =>
    if key = k then (key, value) :: rest
    else if key < k then (key, value) :: (k, v) :: rest
    else (k, v) :: insertEntry key value rest

def set (s : Session) (key value : String) : Session :=
  ⟨s.entries.map (insertEntry key value)⟩

def tokenKey : String := "access_token"

def grantIdKey : String := "selected_grant_id"

def grantTitleKey : String := "selected_grant_title"

/-- The text under a key; an empty one counts as missing. -/
def getNonempty? (s : Session) (key : String) : Option String :=
  (s.get? key).filter fun value => !value.isEmpty

def token? (s : Session) : Option String :=
  s.getNonempty? tokenKey

def isSignedIn (s : Session) : Bool :=
  s.token?.isSome

def signIn (s : Session) (token : String) : Session :=
  s.set tokenKey token

def clearGrant (s : Session) : Session :=
  (s.remove grantIdKey).remove grantTitleKey

/-- Forgets the token and the grant. -/
def signOut (s : Session) : Session :=
  (s.remove tokenKey).clearGrant

def selectedGrant? (s : Session) : Option SelectedGrant :=
  (s.getNonempty? grantIdKey).map fun id => ⟨id, (s.get? grantTitleKey).getD ""⟩

def selectGrant (s : Session) (id title : String) : Session :=
  (s.set grantIdKey id).set grantTitleKey title

end Session

end GrantConsole
