import GrantConsole.Url.Host
import GrantConsole.Url.Scheme

/-!
# Absolute URLs

A URL with its scheme. A URL of the web or of a file has a host and a path under it; any other URL
has them if two slashes follow its scheme, and may else be an address of another kind.
-/

namespace GrantConsole.Url

open GrantConsole.Text

structure Absolute where
  scheme : String
  user : String := ""
  password : Option String := none
  host : Option Host := none
  port : Option Nat := none
  path : String
  query : Option String := none
  fragment : Option String := none
deriving Repr, DecidableEq

/-- The greatest number of a port. -/
def maxPort : Nat := 65535

/-- Reads the port after a host; the usual port of the scheme is not kept. -/
def readPort? (scheme : String) : List Char → Option (Option Nat)
  | [] => some none
  | ':' :: digits => do
    let n ← if digits.all isDigit then readInBase? 10 digits else none
    if maxPort < n then none
    else if digits.isEmpty || usualPort? scheme = some n then some none
    else some (some n)
  | _ => none

/-- The host with what follows it: the port after a colon outside of brackets. -/
def splitPort (inside : Bool) : List Char → List Char × List Char
  | [] => ([], [])
  | c :: cs =>
    if c = ':' ∧ !inside then ([], c :: cs)
    else
      let (host, port) := splitPort (c == '[' || (inside && c != ']')) cs
      (c :: host, port)

/-- What stands before and after the last at sign. -/
def splitUser (cs : List Char) : Option (List Char) × List Char :=
  let host := (cs.reverse.takeWhile (· != '@')).reverse
  if host.length = cs.length then (none, cs)
  else (some (cs.take (cs.length - host.length - 1)), host)

/-- Reads what stands between the slashes and the path. -/
def readServer? (scheme : String) (cs : List Char) : Option Absolute := do
  let (user, cs) := splitUser cs
  let (host, port) := splitPort false cs
  if host.isEmpty && (user.isSome || !port.isEmpty) then none
  else
    let host ← if (usualPort? scheme).isSome then
        (if host.isEmpty then none else readHost? host) else readOtherHost? host
    let port ← readPort? scheme port
    let user := user.getD []
    let name := user.takeWhile (· != ':')
    let password := user.drop (name.length + 1)
    let encoded (cs : List Char) : String := String.ofList (encodeReserved isUserReserved cs)
    some
      { scheme, port
        user := encoded name
        password := if password.isEmpty then none else some (encoded password)
        host := some host
        path := "" }

/-- Adds path, query and fragment to a URL. -/
def Absolute.withRest (u : Absolute) (readPath : List Char → List Char) (cs : List Char) :
    Absolute :=
  let front := cs.takeWhile (· != '#')
  let path := front.takeWhile (· != '?')
  let web := (usualPort? u.scheme).isSome || u.scheme == "file"
  let encoded (reserved : Char → Bool) : List Char → Option String
    | [] => none
    | _ :: cs => some (String.ofList (encodeReserved reserved cs))
  { u with
    path := String.ofList (readPath path)
    query :=
      encoded (if web then isWebQueryReserved else isQueryReserved) (front.drop path.length)
    fragment := encoded isFragmentReserved (cs.drop front.length) }

/-- The path of a URL that need not have one. -/
def otherPath (cs : List Char) : List Char :=
  if cs.isEmpty then [] else normalPathBy isSlash cs

/-- The host of a file and what follows it. A drive is none, and neither is the host at hand. -/
def fileHost? : List Char → Option (Host × List Char)
  | c :: d :: rest =>
    if isWebSlash c && isWebSlash d then
      let host := rest.takeWhile fun c => !isWebSlash c && c != '?' && c != '#'
      if host.isEmpty || isDrive host then some (.domain "", rest)
      else do
        let h ← readHost? host
        some (if h = .domain "localhost" then .domain "" else h, rest.drop host.length)
    else some (.domain "", c :: d :: rest)
  | cs => some (.domain "", cs)

namespace Absolute

/-- The URL that a text names by itself. -/
def parse? (s : String) : Option Absolute := do
  let (scheme, rest) ← takeScheme? (plainChars s.toList)
  let upToPath (slash : Char → Bool) (cs : List Char) : List Char :=
    cs.takeWhile fun c => !slash c && c != '?' && c != '#'
  if scheme = "file" then
    let (host, rest) ← fileHost? rest
    some ({ scheme, host := some host, path := "" : Absolute }.withRest
      (normalPathBy isWebSlash) rest)
  else if (usualPort? scheme).isSome then
    let rest := rest.dropWhile isWebSlash
    let front := upToPath isWebSlash rest
    let u ← readServer? scheme front
    some (u.withRest (normalPathBy isWebSlash) (rest.drop front.length))
  else
    match rest with
    | '/' :: '/' :: rest =>
      let front := upToPath isSlash rest
      let u ← readServer? scheme front
      some (u.withRest otherPath (rest.drop front.length))
    | '/' :: _ => some ({ scheme, path := "" : Absolute }.withRest (normalPathBy isSlash) rest)
    | _ => some ({ scheme, path := "" : Absolute }.withRest (encodeReserved isControl) rest)

/-- The URL as it is sent on behalf of a user: who the user is is not said in it, unless the name
is no text. -/
def withoutUser (u : Absolute) : Absolute :=
  match decode? u.user with
  | none => u
  | some "" => if (u.password.bind decode?).isSome then { u with password := none } else u
  | some _ => { u with user := "", password := none }

def userText (u : Absolute) : String :=
  match u.password with
  | some password => u.user ++ ":" ++ password ++ "@"
  | none => if u.user.isEmpty then "" else u.user ++ "@"

def hostText (u : Absolute) : String :=
  match u.host with
  | some host =>
    "//" ++ u.userText ++ host.text ++ (u.port.map fun n => ":" ++ toString n).getD ""
  | none => if "//".isPrefixOf u.path then "/." else ""

/-- The path with its query. -/
def pathAndQuery (u : Absolute) : String :=
  u.path ++ (u.query.map fun q => "?" ++ q).getD ""

def text (u : Absolute) : String :=
  u.scheme ++ ":" ++ u.hostText ++ u.pathAndQuery ++ (u.fragment.map fun f => "#" ++ f).getD ""

end Absolute

end GrantConsole.Url
