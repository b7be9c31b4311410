import GrantConsole.Markup.Node
import GrantConsole.Session.Access

/-!
# Header and footer

Around the pages for signed-in operators stand a header with links, the title of the selected grant
and a button to sign out, and a footer. Both look at the session only when the path changes.
-/

namespace GrantConsole.Console

open GrantConsole.Markup

variable {α : Type}

/-- The links of the header: paths and labels. -/
def links : List (String × String) :=
  [("/grants", "Grants"), ("/home", "Overview"), ("/expenses", "Expenses"),
    ("/approvals", "Approvals"), ("/categories", "Categories"), ("/rules", "Rules"),
    ("/roles", "Roles"), ("/users", "Users")]

def showsChrome (path : String) (signedIn : Bool) : Bool :=
  signedIn && path != signInPath

/-- A link is active on its path and below it. -/
def linkClass (href path : String) : String :=
  if path = href ∨ (href ++ "/").isPrefixOf path then "nav-shell__link nav-shell__link--active"
  else "nav-shell__link"

/-- What header and footer know of the session and the path. -/
structure Chrome where
  visible : Bool
  path : String
  grant : Option String
deriving Repr, DecidableEq

namespace Chrome

/-- Looks at a session on a path. -/
def look (session : Session) (path : String) : Chrome :=
  ⟨showsChrome path session.isSignedIn, path, session.selectedGrant?.map SelectedGrant.title⟩

def header (c : Chrome) (signOut : α) : List (Node α) :=
  if c.visible then
    [.box "header" "nav-shell"
      [.link "nav-shell__brand" "/grants" "Grant Desk",
        .box "nav" "nav-shell__links"
          (links.map fun link => .link (linkClass link.1 c.path) link.1 link.2),
        .box "span" "nav-shell__grant" [.text (c.grant.getD "No grant selected")],
        .button "btn nav-shell__sign-out" "Sign out" signOut]]
  else []

def footer (c : Chrome) : List (Node α) :=
  if c.visible then [.box "footer" "nav-shell__footer" [.text "Grant funding dashboard"]] else []

end Chrome

end GrantConsole.Console
