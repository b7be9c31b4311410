import GrantConsole.Api.Operation

/-!
# Clients

A client keeps the session of an operator and makes calls of the server over a transport. A call
takes the token from the session, sends one request and takes in what comes back; a failure that
means so ends the session.
-/

namespace GrantConsole.Api

/-- What answers requests. -/
abbrev Transport := Request → Except Failure Response

/-- The session of a client, and what its calls have done so far. -/
structure Client where
  session : Session
  sent : List Request := []
  /-- How often a call has ended the session. -/
  ended : Nat := 0
deriving Repr

/-- Something that a client does and that may fail. -/
abbrev Call := ExceptT Failure (StateM Client)

namespace Call

variable {α : Type}

/-- Fails, and ends the session where the failure means that. -/
def reject (failure : Failure) : Call α := do
  if failure.endsSession then
    modify fun client =>
      { client with session := client.session.signOut, ended := client.ended + 1 }
  throw failure

/-- The token that a request is to carry. -/
def authorize : Call String := do
  match (← get).session.token? with
  | some token => return token
  | none => reject .notSignedIn

/-- Sends a request; only a success comes back as a response. -/
def exchange (transport : Transport) (request : Request) : Call Response := do
  modify fun client => { client with sent := client.sent ++ [request] }
  match transport request with
  | .error failure => reject failure
  | .ok response =>
    if response.isSuccess then return response
    else reject (.ofStatus response.status response.body)

/-- The client that a call leaves behind, and what came of it. -/
def perform (call : Call α) (client : Client) : Client × Except Failure α :=
  (call.run client).swap

end Call

namespace Operation

variable {α : Type}

/-- Takes in a success: what it says has to be readable. -/
def conclude (op : Operation α) (response : Response) : Call α :=
  match op.readAnswer response.body with
  | .error fault => throw (.unexpected fault.message)
  | .ok a => do
    modify fun client => { client with session := op.remember a client.session }
    return a

/-- Performs an operation over a transport. -/
def call (transport : Transport) (op : Operation α) : Call α := do
  let bearer ← if op.needsToken then some <$> Call.authorize else pure none
  let response ← Call.exchange transport ⟨op.method, op.url, bearer, op.body⟩
  op.conclude response

end Operation

end GrantConsole.Api
