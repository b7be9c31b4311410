import GrantConsole.Api.Endpoint
import GrantConsole.Api.Failure
import GrantConsole.Api.Request
import GrantConsole.Record.Reader
import GrantConsole.Record.Writer
import GrantConsole.Session.Basic

/-!
# Calls of the server

An operation says what is asked of the server and of what type the answer is. Every operation but
signing in carries the token of the session, and is not sent without one. A refusal for want of a
valid token ends the session.
-/

namespace GrantConsole.Api

open GrantConsole.Json GrantConsole.Record

inductive Operation : Type → Type 1
  | signIn (email password : String) : Operation Token
  | list (R : Type) [Resource R] (window : Window) : Operation (Page R)
  | fetch (R : Type) [Resource R] (id : String) : Operation R
  | create {R : Type} [Resource R] (record : R) : Operation R
  | replace {R : Type} [Resource R] (id : String) (record : R) : Operation R
  | delete (R : Type) [Resource R] (id : String) : Operation Unit
  | createUser (user : NewUser) : Operation User
  | updateUser (id : String) (update : UserUpdate) : Operation User
  | grantRules (grant : String) : Operation (Page Rule)
  | ruleTemplates : Operation (List String)
  | ruleFromTemplate (grant template : String) (parameters : Json) : Operation Rule
  | grantRoles (grant : String) : Operation (Page Role)
  | assignRole (grant user : String) (type : RoleType) (permissions : List String) : Operation Role
  | pendingExpenses (window : Window) : Operation (Page Expense)
  | projection (grant : String) : Operation Projection

/-- What came of an operation. -/
structure Outcome (α : Type) where
  result : Except Failure α
  session : Session
  /-- The session was ended. -/
  ended : Bool

namespace Operation

variable {α : Type}

def method : Operation α → Method
  | signIn .. => .post
  | list .. => .get
  | fetch .. => .get
  | create .. => .post
  | replace .. => .put
  | delete .. => .delete
  | createUser _ => .post
  | updateUser .. => .patch
  | grantRules _ => .get
  | ruleTemplates => .get
  | ruleFromTemplate .. => .post
  | grantRoles _ => .get
  | assignRole .. => .post
  | pendingExpenses _ => .get
  | projection _ => .get

def url : Operation α → String
  | signIn .. => Endpoint.token
  | list R window => Endpoint.paged (Endpoint.collection R) window
  | fetch R id => Endpoint.item R id
  | create (R := R) _ => Endpoint.collection R
  | replace (R := R) id _ => Endpoint.item R id
  | delete R id => Endpoint.item R id
  | createUser _ => Endpoint.collection User
  | updateUser id _ => Endpoint.item User id
  | grantRules grant => Endpoint.grantRules grant
  | ruleTemplates => Endpoint.ruleTemplates
  | ruleFromTemplate grant template parameters =>
    Url.withQuery (Endpoint.ruleTemplate grant template) [("kwargs", parameters.compact)]
  | grantRoles grant => Endpoint.grantRoles grant
  | assignRole grant user type _ =>
    Url.withQuery (Endpoint.userRole grant user) [("role_type", type.spelling)]
  | pendingExpenses window => Endpoint.paged Endpoint.pendingExpenses window
  | projection grant => Endpoint.projection grant

/-- The form that asks for a token. -/
def credentials (email password : String) : List (String × String) :=
  [("grant_type", "password"), ("username", email), ("password", password), ("scope", ""),
    ("client_id", ""), ("client_secret", "")]

def body : Operation α → Body
  | signIn email password => .form (credentials email password)
  | create record => .json (Shaped.shape.write record)
  | replace _ record => .json (Shaped.shape.write record)
  | createUser user => .json (Shaped.shape.write user)
  | updateUser _ update => .json (Shaped.shape.write update)
  | assignRole _ _ _ permissions =>
    .json (.object [("permissions", .array (permissions.map .text))])
  | _ => .empty

/-- Reads what a success says; the success of a deletion says nothing. -/
def readAnswer : Operation α → String → Except Fault α
  | signIn .. => Shaped.shape.parse
  | list .. => Shaped.shape.parse
  | fetch .. => Shaped.shape.parse
  | create _ => Shaped.shape.parse
  | replace .. => Shaped.shape.parse
  | delete .. => fun _ => .ok ()
  | createUser _ => Shaped.shape.parse
  | updateUser .. => Shaped.shape.parse
  | grantRules _ => Shaped.shape.parse
  | ruleTemplates => Shaped.shape.parse
  | ruleFromTemplate .. => Shaped.shape.parse
  | grantRoles _ => Shaped.shape.parse
  | assignRole .. => Shaped.shape.parse
  | pendingExpenses _ => Shaped.shape.parse
  | projection _ => Shaped.shape.parse

/-- Only signing in needs no token. -/
def needsToken : Operation α → Bool
  | signIn .. => false
  | _ => true

/-- The request that an operation sends, if it can send one. -/
def request? (op : Operation α) (session : Session) : Option Request :=
  if op.needsToken then
    session.token?.map fun token => ⟨op.method, op.url, some token, op.body⟩
  else some ⟨op.method, op.url, none, op.body⟩

/-- A failure, with the end of the session where it means that. -/
def fail (session : Session) (failure : Failure) : Outcome α :=
  if failure.endsSession then ⟨.error failure, session.signOut, true⟩
  else ⟨.error failure, session, false⟩

/-- What a success leaves behind: signing in keeps the token. -/
def remember : Operation α → α → Session → Session
  | signIn .., token, session => session.signIn token.access
  | _, _, session => session

/-- What comes of an operation that has been answered. -/
def settle (op : Operation α) (session : Session) (answer : Except Failure Response) : Outcome α :=
  match answer with
  | .error failure => fail session failure
  | .ok response =>
    if response.isSuccess then
      match op.readAnswer response.body with
      | .ok a => ⟨.ok a, op.remember a session, false⟩
      | .error fault => fail session (.unexpected fault.message)
    else fail session (.ofStatus response.status response.body)

end Operation

end GrantConsole.Api
