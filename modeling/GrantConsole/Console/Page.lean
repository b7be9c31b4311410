import GrantConsole.Console.Place
import GrantConsole.Screen.Approvals
import GrantConsole.Screen.Categories
import GrantConsole.Screen.Expenses
import GrantConsole.Screen.Grants
import GrantConsole.Screen.Overview
import GrantConsole.Screen.Roles
import GrantConsole.Screen.RuleEditor
import GrantConsole.Screen.Rules
import GrantConsole.Screen.SignIn
import GrantConsole.Screen.Users

/-!
# Pages

The page at hand is one of the screens. Every screen but the sign-in page is guarded: it is mounted
only for an operator who is signed in, and sends any other to the sign-in page.
-/

namespace GrantConsole.Console

open GrantConsole.Api GrantConsole.Markup GrantConsole.Screen

inductive Page
  | signIn (s : SignIn)
  | grants (s : Grants)
  | overview (s : Overview)
  | expenses (s : Expenses)
  | approvals (s : Approvals)
  | categories (s : Categories)
  | roles (s : Roles)
  | users (s : Users)
  | rules (s : Rules)
  | ruleEditor (s : RuleEditor)
  | missing
deriving Repr, DecidableEq

namespace Page

inductive Act
  | signIn (a : SignIn.Act)
  | grants (a : Grants.Act)
  | expenses (a : Expenses.Act)
  | approvals (a : Approvals.Act)
  | categories (a : Categories.Act)
  | roles (a : Roles.Act)
  | users (a : Users.Act)
  | rules (a : Rules.Act)
  | ruleEditor (a : RuleEditor.Act)
deriving Repr, DecidableEq

inductive Call
  | signIn (c : SignIn.Call)
  | grants (c : Grants.Call)
  | overview (c : Overview.Call)
  | expenses (c : Expenses.Call)
  | approvals (c : Approvals.Call)
  | categories (c : Categories.Call)
  | roles (c : Roles.Call)
  | users (c : Users.Call)
  | rules (c : Rules.Call)
  | ruleEditor (c : RuleEditor.Call)
deriving Repr

abbrev Call.Answer : Call → Type
  | signIn _ => Token
  | grants c => c.Answer
  | overview _ => Projection
  | expenses c => c.Answer
  | approvals c => c.Answer
  | categories c => c.Answer
  | roles c => c.Answer
  | users c => c.Answer
  | rules c => c.Answer
  | ruleEditor c => c.Answer

def Call.operation : (c : Call) → Operation c.Answer
  | signIn c => c.operation
  | grants c => c.operation
  | overview c => c.operation
  | expenses c => c.operation
  | approvals c => c.operation
  | categories c => c.operation
  | roles c => c.operation
  | users c => c.operation
  | rules c => c.operation
  | ruleEditor c => c.operation

/-- The title of the selected grant, as a page takes it when it is opened. -/
def scopeOf (session : Session) : String :=
  (session.selectedGrant?.map SelectedGrant.title).getD ""

/-- The page of a place, as it is opened. -/
def opened (place : Place) (session : Session) : Page :=
  match place with
  | .signIn => signIn {}
  | .grants => grants {}
  | .overview => overview {}
  | .expenses => expenses { scope := scopeOf session }
  | .approvals => approvals {}
  | .categories => categories {}
  | .roles => roles { scope := scopeOf session }
  | .users => users {}
  | .rules => rules { scope := scopeOf session }
  | .newRule => ruleEditor (.opened none session)
  | .rule id => ruleEditor (.opened (some id) session)
  | .missing => missing

/-- The page takes the address of another place that it shows; nothing is loaded again. -/
def moved (place : Place) : Page → Page
  | ruleEditor s =>
    match place with
    | .rule id => ruleEditor { s with address := some id }
    | _ => ruleEditor s
  | p => p

def isGuarded : Page → Bool
  | signIn _ => false
  | missing => false
  | _ => true

/-- What a page does when it is mounted for an operator who may see it. -/
def load (p : Page) (session : Session) : Turn Page Call :=
  match p with
  | signIn s => ⟨signIn s, session, []⟩
  | grants s => (s.reload session).map grants .grants
  | overview s => (s.reload session).map overview .overview
  | expenses s => (s.mounted session).map expenses .expenses
  | approvals s => (s.mounted session).map approvals .approvals
  | categories s => (s.reload session).map categories .categories
  | roles s => (s.mounted session).map roles .roles
  | users s => (s.reload session).map users .users
  | rules s => (s.reload session).map rules .rules
  | ruleEditor s => (s.mounted session).map ruleEditor .ruleEditor
  | missing => ⟨missing, session, []⟩

/-- What a page does when it is mounted. -/
def mounted (p : Page) (session : Session) : Turn Page Call :=
  if p.isGuarded then
    match session.access with
    | .granted => p.load session
    | .redirect path => ⟨p, session, [.goto path]⟩
  else ⟨p, session, []⟩

def handle (p : Page) (session : Session) (act : Act) (entry : Entry) : Turn Page Call :=
  match p, act with
  | signIn s, .signIn a => (s.handle session a entry).map signIn .signIn
  | grants s, .grants a => (s.handle session a entry).map grants .grants
  | expenses s, .expenses a => (s.handle session a entry).map expenses .expenses
  | approvals s, .approvals a => (s.handle session a entry).map approvals .approvals
  | categories s, .categories a => (s.handle session a entry).map categories .categories
  | roles s, .roles a => (s.handle session a entry).map roles .roles
  | users s, .users a => (s.handle session a entry).map users .users
  | rules s, .rules a => (s.handle session a entry).map rules .rules
  | ruleEditor s, .ruleEditor a => (s.handle session a entry).map ruleEditor .ruleEditor
  | p, _ => ⟨p, session, []⟩

/-- Takes in the answer to a call. The page that made it may be gone. -/
def settle (page : Option Page) (session : Session) :
    (c : Call) → Except Failure c.Answer → Turn (Option Page) Call
  | .signIn _, result =>
    let state := match page with | some (signIn s) => some s | _ => none
    (SignIn.settle state session result).map (Option.map signIn) .signIn
  | .grants c, result =>
    let state := match page with | some (grants s) => some s | _ => none
    (Grants.settle state session c result).map (Option.map grants) .grants
  | .overview _, result =>
    let state := match page with | some (overview s) => some s | _ => none
    (Overview.settle state session result).map (Option.map overview) .overview
  | .expenses c, result =>
    let state := match page with | some (expenses s) => some s | _ => none
    (Expenses.settle state session c result).map (Option.map expenses) .expenses
  | .approvals c, result =>
    let state := match page with | some (approvals s) => some s | _ => none
    (Approvals.settle state session c result).map (Option.map approvals) .approvals
  | .categories c, result =>
    let state := match page with | some (categories s) => some s | _ => none
    (Categories.settle state session c result).map (Option.map categories) .categories
  | .roles c, result =>
    let state := match page with | some (roles s) => some s | _ => none
    (Roles.settle state session c result).map (Option.map roles) .roles
  | .users c, result =>
    let state := match page with | some (users s) => some s | _ => none
    (Users.settle state session c result).map (Option.map users) .users
  | .rules c, result =>
    let state := match page with | some (rules s) => some s | _ => none
    (Rules.settle state session c result).map (Option.map rules) .rules
  | .ruleEditor c, result =>
    let state := match page with | some (ruleEditor s) => some s | _ => none
    (RuleEditor.settle state session c result).map (Option.map ruleEditor) .ruleEditor

def view : Page → Node Act
  | signIn s => s.view.map .signIn
  | grants s => s.view.map .grants
  | overview s => s.view
  | expenses s => s.view.map .expenses
  | approvals s => s.view.map .approvals
  | categories s => s.view.map .categories
  | roles s => s.view.map .roles
  | users s => s.view.map .users
  | rules s => s.view.map .rules
  | ruleEditor s => s.view.map .ruleEditor
  | missing => .text "Page not found."

end Page

end GrantConsole.Console
