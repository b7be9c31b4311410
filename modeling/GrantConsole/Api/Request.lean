import GrantConsole.Json.Basic

/-!
# Requests and responses

What goes to the server and what comes back.
-/

namespace GrantConsole.Api

inductive Method
  | get
  | post
  | put
  | patch
  | delete
deriving Repr, DecidableEq

def Method.word : Method → String
  | get => "GET"
  | post => "POST"
  | put => "PUT"
  | patch => "PATCH"
  | delete => "DELETE"

inductive Body
  | empty
  | json (value : Json)
  /-- Pairs of names and values of a form. -/
  | form (pairs : List (String × String))
deriving Repr, BEq

structure Request where
  method : Method
  url : String
  /-- The token that the request carries. -/
  bearer : Option String
  body : Body
deriving Repr, BEq

/-- The headers that a request is sent with. -/
def Request.headers (r : Request) : List (String × String) :=
  ("accept", "application/json") ::
    match r.bearer with
    | some token => [("authorization", "Bearer " ++ token)]
    | none => []

structure Response where
  status : Nat
  body : String
deriving Repr, DecidableEq

def Response.isSuccess (r : Response) : Bool :=
  200 ≤ r.status && r.status < 300

end GrantConsole.Api
