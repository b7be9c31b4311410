import GrantConsole.Console.Chrome
import GrantConsole.Console.Page
import GrantConsole.Console.Server
import GrantConsole.Markup.Stray
import GrantConsole.Widget.ToastHost

/-!
# The open tab

The console as it runs in a tab of the browser: session, toasts, place, page, calls that are under
way and work that is due. Work is done in the order in which it became due, one piece after the
other, until none is left; a call whose reply is at hand is settled when it is sent. A page that has
been left takes in nothing more.
-/

namespace GrantConsole.Console

open GrantConsole.Api GrantConsole.Markup GrantConsole.Screen GrantConsole.Url

/-- Work that is due. The number says which page it belongs to, in the order of their opening. -/
inductive Due
  | mount (page : Nat)
  | call (page : Nat) (c : Page.Call)
  | goto (page : Nat) (path : String)
  | signedOut
  /-- The session has expired. -/
  | expiry
deriving Repr

/-- A call that waits for its reply. -/
structure Flight where
  page : Nat
  call : Page.Call
deriving Repr

/-- A toast that will go at its time. -/
structure Timer where
  time : Nat
  toast : Nat
deriving Repr, DecidableEq

/-- What events bring about. -/
inductive Act
  | page (a : Page.Act)
  | signOut
  | dismiss (toast : Nat)
deriving Repr, DecidableEq

structure Tab where
  session : Session
  server : Server
  toasts : Toasts := {}
  timers : List Timer := []
  clock : Nat := 0
  location : Location
  chrome : Chrome
  page : Page
  /-- The number of the page at hand. -/
  number : Nat := 0
  expired : Bool := false
  flights : List Flight := []
  due : List Due := []
  /-- All requests that were sent. -/
  sent : List Request := []
  /-- Properties of elements of the page that the program does not set. -/
  strays : List Stray := []
deriving Repr

namespace Tab

def push (tab : Tab) (due : Due) : Tab :=
  { tab with due := tab.due ++ [due] }

def toast (tab : Tab) (kind : ToastKind) (text : String) : Tab :=
  { tab with
    toasts := tab.toasts.push kind text
    timers := tab.timers ++ [⟨tab.clock + Toasts.lifetime, tab.toasts.next⟩] }

def command (tab : Tab) (page : Nat) : Command Page.Call → Tab
  | .toast kind text => tab.toast kind text
  | .call c => tab.push (.call page c)
  | .goto path => tab.push (.goto page path)

def commands (tab : Tab) (page : Nat) (cs : List (Command Page.Call)) : Tab :=
  cs.foldl (fun tab c => tab.command page c) tab

/-- Goes to a location. Another page opens unless the page at hand shows the place as well. -/
def goto (tab : Tab) (location : Location) : Tab :=
  if location = tab.location then tab
  else
    let chrome :=
      if location.path = tab.location.path then tab.chrome
      else Chrome.look tab.session location.path
    let place := Place.ofPath location.path
    if place.samePage (Place.ofPath tab.location.path) then
      { tab with location, chrome, page := tab.page.moved place }
    else
      { tab with
        location, chrome
        page := .opened place tab.session
        number := tab.number + 1
        strays := [] }.push (.mount (tab.number + 1))

/-- Follows a path from the place at hand. -/
def follow (tab : Tab) (path : String) : Tab :=
  tab.goto (tab.location.follow path)

/-- Takes in a turn of the page at hand. -/
def takeTurn (tab : Tab) (t : Turn Page Page.Call) : Tab :=
  { tab with page := t.state, session := t.session }.commands tab.number t.commands

/-- Takes in what came of a call that a page has made. -/
def settleCall (tab : Tab) (page : Nat) (c : Page.Call) (outcome : Outcome c.Answer) : Tab :=
  let tab := { tab with session := outcome.session }
  let tab := if outcome.ended then { tab with expired := true }.push .expiry else tab
  let state := if page = tab.number then some tab.page else none
  let t := Page.settle state tab.session c outcome.result
  { tab with page := t.state.getD tab.page, session := t.session }.commands page t.commands

/-- Takes in the reply to a call. -/
def reply (tab : Tab) (page : Nat) (c : Page.Call) (reply : Reply) : Tab :=
  tab.settleCall page c (c.operation.settle tab.session reply.outcome)

/-- Makes a call: without a token it fails, and without a reply it is under way. -/
def send (tab : Tab) (page : Nat) (c : Page.Call) : Tab :=
  match c.operation.request? tab.session with
  | none => tab.settleCall page c (Operation.fail tab.session .notSignedIn)
  | some request =>
    let (r, server) := tab.server.take request
    let tab := { tab with server, sent := tab.sent ++ [request] }
    match r with
    | some r => tab.reply page c r
    | none => { tab with flights := tab.flights ++ [⟨page, c⟩] }

/-- Does a piece of work. -/
def work (tab : Tab) : Due → Tab
  | .mount page => if page = tab.number then tab.takeTurn (tab.page.mounted tab.session) else tab
  | .call page c => tab.send page c
  | .goto page path => if page = tab.number then tab.follow path else tab
  | .signedOut => tab.follow signInPath
  | .expiry => if tab.expired then { tab with expired := false }.follow signInPath else tab

/-- Does the work that became due first. -/
def next (tab : Tab) : Option Tab :=
  match tab.due with
  | [] => none
  | due :: rest => some ({ tab with due := rest }.work due)

/-- Does due work, at most so many pieces of it. -/
def runFor : (fuel : Nat) → Tab → Tab
  | 0, tab => tab
  | fuel + 1, tab =>
    match tab.next with
    | none => tab
    | some tab => runFor fuel tab

/-- More pieces of work than one event brings about. -/
def workLimit : Nat := 1000

/-- The page at hand as the program shows it. -/
def plainMain (tab : Tab) : Node Act :=
  .box "main" "app-main" [tab.page.view.map .page]

/-- Forgets the properties of elements that are gone. -/
def sweep (tab : Tab) : Tab :=
  { tab with strays := tab.strays.filter fun stray => stray.isIn tab.plainMain }

/-- Does all work that is due. -/
def run (tab : Tab) : Tab :=
  (tab.runFor workLimit).sweep

/-- The console as it is opened on a path. -/
def opened (session : Session) (server : Server) (path : String) : Tab :=
  let location := Location.ofLink path
  let place := Place.ofPath location.path
  let tab : Tab :=
    { session, server, location, chrome := Chrome.look session location.path,
      page := .opened place session, due := [.mount 0] }
  tab.run

/-- Does what an event asks for. -/
def act (tab : Tab) (a : Act) (entry : Entry) : Tab :=
  match a with
  | .page a => (tab.takeTurn (tab.page.handle tab.session a entry)).run
  | .signOut => ({ tab with session := tab.session.signOut }.push .signedOut).run
  | .dismiss id => { tab with toasts := tab.toasts.dismiss id }

/-- Follows a link. -/
def visit (tab : Tab) (path : String) : Tab :=
  (tab.follow path).run

/-- Answers the call under way with a number, if there is one. -/
def answer? (tab : Tab) (nth : Nat) (r : Reply) : Option Tab :=
  tab.flights[nth]?.map fun flight =>
    ({ tab with flights := tab.flights.eraseIdx nth }.reply flight.page flight.call r).run

/-- Moves the clock to a time; the toasts whose time has come go. -/
def wait (tab : Tab) (ms : Nat) : Tab :=
  let time := tab.clock + ms
  let gone := tab.timers.filter fun t => t.time ≤ time
  { tab with
    clock := time
    timers := tab.timers.filter fun t => time < t.time
    toasts := gone.foldl (fun toasts t => toasts.dismiss t.toast) tab.toasts }

/-- Another window changes what is kept; the console is not told. -/
def keep (tab : Tab) (key : String) (value : Option String) : Tab :=
  match value with
  | some value => { tab with session := tab.session.set key value }
  | none => { tab with session := tab.session.remove key }

def title : String := "Grant Desk"

def header (tab : Tab) : List (Node Act) :=
  tab.chrome.header .signOut

def main (tab : Tab) : Node Act :=
  tab.strays.foldl Stray.shownIn tab.plainMain

/-- Sets a property of an element of the page. -/
def setProperty (tab : Tab) (spot : Spot Act) (property : Attribute) : Tab :=
  { tab with strays := Stray.set ⟨spot.path.dropLast, spot.tags, property⟩ tab.strays }

def footer (tab : Tab) : List (Node Act) :=
  tab.chrome.footer

def toastHost (tab : Tab) : Node Act :=
  Widget.toastHost .dismiss tab.toasts

/-- What stands in the body of the document. -/
def body (tab : Tab) : List (Node Act) :=
  tab.header ++ [tab.main] ++ tab.footer ++ [tab.toastHost]

end Tab

end GrantConsole.Console
