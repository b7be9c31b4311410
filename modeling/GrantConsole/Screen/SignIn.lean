import GrantConsole.Api.Operation
import GrantConsole.Form.Basic
import GrantConsole.Markup.Node
import GrantConsole.Screen.Basic
import GrantConsole.Session.Access

/-!
# The sign-in page

An operator gives an email and a password, and with the token that comes back goes to the grants.
While a sign-in is under way no second one starts.
-/

namespace GrantConsole.Screen

open GrantConsole.Api GrantConsole.Markup GrantConsole.Text

structure SignIn where
  email : String := ""
  password : String := ""
  busy : Bool := false
deriving Repr, DecidableEq

namespace SignIn

inductive Act
  | email
  | password
  | submit
deriving Repr, DecidableEq

structure Call where
  email : String
  password : String
deriving Repr, DecidableEq

def Call.operation (c : Call) : Operation Token :=
  .signIn c.email c.password

def handle (s : SignIn) (session : Session) (act : Act) (entry : Entry) : Turn SignIn Call :=
  match act with
  | .email => ⟨{ s with email := entry.value }, session, []⟩
  | .password => ⟨{ s with password := entry.value }, session, []⟩
  | .submit =>
    if s.busy then ⟨s, session, []⟩
    else
      let email := trim s.email
      match checkCredentials email s.password with
      | .error fault => ⟨s, session, [failure fault.message]⟩
      | .ok () => ⟨{ s with busy := true }, session, [.call ⟨email, s.password⟩]⟩

/-- The answer is told in any case; only the page itself goes on to the grants. -/
def settle (state : Option SignIn) (session : Session) (result : Except Failure Token) :
    Turn (Option SignIn) Call :=
  let rested := state.map fun s => { s with busy := false }
  match result with
  | .ok _ =>
    ⟨rested, session,
      success "Signed in." :: if state.isSome then [.goto afterSignInPath] else []⟩
  | .error e => ⟨rested, session, [failure ("Sign-in failed: " ++ e.message)]⟩

def field (kind placeholder completion value : String) (typed : Act) : Node Act :=
  .element "input"
    [.cls "login-input", .plain "type" kind, .plain "placeholder" placeholder,
      .plain "autocomplete" completion, .value value]
    [.on .input typed] []

def view (s : SignIn) : Node Act :=
  .box "div" "login-page"
    [.box "div" "login-card"
      [.el "h1" [] [.text "Grant Desk"],
        .box "p" "login-card__subtitle" [.text "Sign in to manage grant funding"],
        .element "form" [.cls "login-form"] [.on .submit .submit]
          [field "email" "you@example.com" "username" s.email .email,
            field "password" "Password" "current-password" s.password .password,
            .el "button" [.cls "login-button", .plain "type" "submit", .disabled s.busy]
              [.text (if s.busy then "Signing in..." else "Sign In")]]]]

end SignIn

end GrantConsole.Screen
