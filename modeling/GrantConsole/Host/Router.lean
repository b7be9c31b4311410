import GrantConsole.Console.Page
import GrantConsole.Host.Relay
import GrantConsole.Markup.Render
import GrantConsole.Widget.ToastHost

/-!
# The host

The host serves the pages of the console as they are before anything has run, answers for its own
health, offers the files of the console, and relays what is for the server of the grants. Only
requests that ask for something are served, and pages only under their exact paths.
-/

namespace GrantConsole.Host

open GrantConsole.Console GrantConsole.Markup

inductive Answer
  | response (r : Response)
  /-- A page, by what stands in its body. -/
  | page (body : String)
  | relayed
deriving Repr, DecidableEq

/-- The body of a page for a visitor of whom nothing is known. -/
def pageBody (place : Place) : String :=
  let page := Page.opened place .forgetful
  let main : Node Unit := .box "main" "app-main" [page.view.map fun _ => ()]
  Node.renderAll false [main, Widget.toastHost (fun _ => ()) {}]

def methodRefused : Response :=
  ⟨405, [("allow", "GET,HEAD")], ""⟩

def notFound : Response :=
  ⟨404, [], ""⟩

/-- What is answered to a request that may only ask for something. -/
def ifAsking (method : String) (answer : Answer) : Answer :=
  if method = "GET" ∨ method = "HEAD" then answer else .response methodRefused

/-- The place of a page under its exact path. -/
def placeOf (path : String) : Option Place :=
  if path ≠ "/" ∧ path.toList.getLast? = some '/' then none
  else
    match Place.ofPath path with
    | .missing => none
    | place => some place

def route (method : String) (target : Url.Target) : Answer :=
  let path := target.path
  if path = "/healthz" then ifAsking method (.response ⟨200, [], ""⟩)
  else if isRelayed target then .relayed
  else if path = "/pkg" ∨ "/pkg/".isPrefixOf path then ifAsking method (.response notFound)
  else
    match placeOf path with
    | some place => ifAsking method (.page (pageBody place))
    | none => .response notFound

end GrantConsole.Host
