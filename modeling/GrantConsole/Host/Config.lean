import GrantConsole.Number.Power
import GrantConsole.Text.Blank
import GrantConsole.Text.Whole

/-!
# Configuration of the host

The host is configured by texts under names. A port that is no number and a server address of
another kind are refused; a time limit that is no number gives way to the usual one.
-/

namespace GrantConsole.Host

open GrantConsole.Number GrantConsole.Text

structure Config where
  port : Nat
  /-- Where the server of the grants is, without slashes at the end. -/
  backend : String
  /-- How long a relayed request may take, in seconds. -/
  requestSeconds : Nat
  /-- How long it may take to reach the server, in seconds. -/
  connectSeconds : Nat
deriving Repr, DecidableEq

inductive ConfigFault
  | badPort (raw : String)
  | badBackend (url : String)
deriving Repr, DecidableEq

def ConfigFault.message : ConfigFault → String
  | badPort raw => "invalid PORT: " ++ raw
  | badBackend url => "invalid BACKEND_URL (expected http:// or https://): " ++ url

def defaultPort : Nat := 3000
def defaultBackend : String := "http://localhost:8000"
def defaultRequestSeconds : Nat := 30
def defaultConnectSeconds : Nat := 10

def readPort : Option String → Except ConfigFault Nat
  | none => .ok defaultPort
  | some raw =>
    match readBelow? (twoTo 16) (trimChars raw.toList) with
    | some port => .ok port
    | none => .error (.badPort raw)

/-- A text without the slashes at its end. -/
def dropSlashes (s : String) : String :=
  String.ofList (s.toList.reverse.dropWhile (· == '/')).reverse

def readBackend (raw : Option String) : Except ConfigFault String :=
  let url := dropSlashes (trim (raw.getD defaultBackend))
  if "http://".isPrefixOf url ∨ "https://".isPrefixOf url then .ok url else .error (.badBackend url)

def readSeconds (usual : Nat) (raw : Option String) : Nat :=
  (raw.bind fun s => readBelow? (twoTo 64) s.toList).getD usual

/-- The configuration that the texts under the names of an environment give. -/
def Config.read (environment : String → Option String) : Except ConfigFault Config := do
  let port ← readPort (environment "PORT")
  let backend ← readBackend (environment "BACKEND_URL")
  .ok
    { port, backend
      requestSeconds :=
        readSeconds defaultRequestSeconds (environment "PROXY_REQUEST_TIMEOUT_SECS")
      connectSeconds :=
        readSeconds defaultConnectSeconds (environment "PROXY_CONNECT_TIMEOUT_SECS") }

end GrantConsole.Host
