import GrantConsole.Host.Client
import GrantConsole.Host.Config
import GrantConsole.Json.Printer

/-!
# The relay

The host passes requests under the base path on to the server of the grants, with their method,
query, body and three of their headers, and passes the answer back. A server that cannot be reached,
or whose answer breaks off, is answered for by the host itself.
-/

namespace GrantConsole.Host

open GrantConsole.Url

/-- A request as the host gets it; header names are in lower case. -/
structure Request where
  method : String
  target : Target
  headers : List (String × String) := []
  body : String := ""
deriving Repr, DecidableEq

structure Response where
  status : Nat
  headers : List (String × String) := []
  body : String := ""
deriving Repr, DecidableEq

/-- A request as the server of the grants gets it. -/
structure Forwarded where
  method : String
  url : String
  headers : List (String × String)
  body : String
deriving Repr, DecidableEq

/-- What becomes of a forwarded request. -/
inductive Delivery
  | answer (response : Response)
  | unreachable (why : String)
  /-- The status and headers came, the body did not. -/
  | unreadable (why : String)
deriving Repr, DecidableEq

/-- The server got the request. -/
def Delivery.isReceived : Delivery → Bool
  | answer _ | unreadable _ => true
  | unreachable _ => false

inductive RelayFault
  /-- There is nothing to send requests with. -/
  | noClient (why : String)
  | unreachable (why : String)
  | unreadable (why : String)
deriving Repr, DecidableEq

namespace RelayFault

def message : RelayFault → String
  | noClient why => "proxy client build failed: " ++ why
  | unreachable why => "backend unreachable: " ++ why
  | unreadable why => "backend response unreadable: " ++ why

def status : RelayFault → Nat
  | noClient _ => 500
  | _ => 502

/-- The answer of the host, in the form in which the server explains its refusals. -/
def response (fault : RelayFault) : Response :=
  ⟨fault.status, [("content-type", "application/json")],
    (Json.object [("detail", .text fault.message)]).compact⟩

end RelayFault

/-- The headers that are passed on. -/
def forwardedHeaders : List String :=
  ["authorization", "content-type", "accept"]

/-- The address that the relay uses for the one it is set up with, which may end in slashes. -/
def relayAddress (address : String) : String :=
  dropSlashes address

/-- Where a request goes: the address of the server, followed by path and query. -/
def targetUrl (backend : String) (target : Target) : String :=
  backend ++ target.pathAndQuery.getD ""

def relayStart : String := "/api/v1/"

/-- The relay takes every path that goes on after its start. -/
def isRelayed (target : Target) : Bool :=
  let path := target.path
  relayStart.isPrefixOf path && relayStart.length < path.length

/-- What is passed on of a request: of each header its first value. -/
def forward (backend : String) (r : Request) : Forwarded :=
  ⟨r.method, targetUrl backend r.target,
    forwardedHeaders.filterMap fun name => (r.headers.lookup name).map fun value => (name, value),
    r.body⟩

/-- What is passed back of an answer. -/
def passBack : Delivery → Response
  | .answer response =>
    { response with
      headers := (response.headers.filter fun h => h.1 == "content-type").take 1 }
  | .unreachable why => (RelayFault.unreachable why).response
  | .unreadable why => (RelayFault.unreadable why).response

/-- The answer to a request that only asks for the headers has no body. -/
def withoutBody (method : String) (r : Response) : Response :=
  if method = "HEAD" then { r with body := "" } else r

/-- Relays a request: what is answered to it, and what the server gets. Paths that are not under the
base path lead nowhere. -/
def relay (backend : String) (server : Absolute → Forwarded → Delivery) (r : Request) :
    Response × List Forwarded :=
  if isRelayed r.target then
    let forwarded := forward backend r
    match sendingUrl forwarded.url with
    | .error fault => (withoutBody r.method (passBack (.unreachable fault.message)), [])
    | .ok url =>
      let delivery := server url forwarded
      (withoutBody r.method (passBack delivery), if delivery.isReceived then [forwarded] else [])
  else (⟨404, [], ""⟩, [])

end GrantConsole.Host
