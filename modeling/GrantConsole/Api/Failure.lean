import GrantConsole.Json.Free
import GrantConsole.Json.Message

/-!
# Failures of calls

Why a call of the server did not give what was asked for. The server explains a refusal in the
member `detail` of its answer, which is a text or a list of entries with messages.
-/

namespace GrantConsole.Api

open GrantConsole.Json

inductive Failure
  /-- No token is kept; nothing was sent. -/
  | notSignedIn
  /-- The request could not be sent, or its answer not be read. -/
  | transport (why : String)
  /-- The server refused. -/
  | refused (status : Nat) (detail : Option String)
  /-- The answer is not of the shape that was asked for. -/
  | unexpected (why : String)
  /-- There is nothing to send requests with. -/
  | unavailable
deriving Repr, DecidableEq

/-- The explanation in the text of a refusal. -/
def explanation? (body : String) : Option String :=
  match Json.parse body with
  | .error _ => none
  | .ok value =>
    match value.member? "detail" with
    | some (.text s) => some s
    | some (.array entries) =>
      match entries.filterMap fun entry => message? entry with
      | [] => none
      | messages => some ("; ".intercalate messages)
    | _ => none
where
  message? (entry : Json) : Option String :=
    match entry.member? "msg" with
    | some (.text s) => some s
    | _ => none

namespace Failure

def ofStatus (status : Nat) (body : String) : Failure :=
  .refused status (explanation? body)

def message : Failure → String
  | notSignedIn => "not signed in"
  | transport why => "request failed: " ++ why
  | refused status none => "request failed (" ++ toString status ++ ")"
  | refused status (some detail) => "request failed (" ++ toString status ++ "): " ++ detail
  | unexpected why => "unexpected response: " ++ why
  | unavailable => "not available on server"

/-- The operator has to sign in again. -/
def endsSession : Failure → Bool
  | notSignedIn => true
  | refused status _ => status == 401
  | _ => false

end Failure

end GrantConsole.Api
