import GrantConsole.Url.Absolute
import GrantConsole.Url.Target

/-!
# Sending requests

To which URL the host sends a request, and how it tells that it cannot. It sends requests to URLs of
the web whose text is a request target as well.
-/

namespace GrantConsole.Host

open GrantConsole.Url

/-- Why a request got no answer. -/
inductive SendFault
  /-- There is no URL to send it to. -/
  | noUrl
  /-- No request can be sent to the URL. -/
  | badUrl (url : String)
  /-- Nothing answers at the URL. -/
  | noAnswer (url : String)
deriving Repr, DecidableEq

def SendFault.message : SendFault → String
  | noUrl => "builder error"
  | badUrl url => "builder error for url (" ++ url ++ ")"
  | noAnswer url => "error sending request for url (" ++ url ++ ")"

/-- The URL to which a request for a text is sent. -/
def sendingUrl (s : String) : Except SendFault Absolute :=
  match Absolute.parse? s with
  | none => .error .noUrl
  | some url =>
    let sent := url.withoutUser
    if url.host.isNone || url.host = some (.domain "") then .error (.badUrl url.text)
    else if sent.scheme ≠ "http" ∧ sent.scheme ≠ "https" then .error (.badUrl sent.text)
    else if (Target.parse? sent.text).isNone then .error (.badUrl sent.text)
    else .ok sent

end GrantConsole.Host
