import GrantConsole.Session.Basic

/-!
# Access to pages

A page for signed-in operators looks at the session before it asks the server for anything: without
a token it gives way to the sign-in page.
-/

namespace GrantConsole

inductive Access
  | granted
  | redirect (path : String)
deriving Repr, DecidableEq

def signInPath : String := "/"

def afterSignInPath : String := "/grants"

def Session.access (s : Session) : Access :=
  if s.isSignedIn then .granted else .redirect signInPath

end GrantConsole
