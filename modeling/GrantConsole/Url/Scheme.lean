/-!
# Schemes

The front of a URL. The schemes of the web have a port that need not be said.
-/

namespace GrantConsole.Url

/-- The characters of a URL that count: blanks and controls at the ends do not, and neither do tabs
and the ends of lines. -/
def plainChars (cs : List Char) : List Char :=
  let outer (c : Char) : Bool := c.toNat ≤ 0x20
  let cs := ((cs.dropWhile outer).reverse.dropWhile outer).reverse
  cs.filter fun c => c != '\t' && c != '\n' && c != '\r'

/-- Takes the scheme off the front of a URL, in lower case. -/
def takeScheme? (cs : List Char) : Option (String × List Char) :=
  let scheme := cs.takeWhile fun c => c.isAlphanum || c == '+' || c == '-' || c == '.'
  match scheme.head?, cs.drop scheme.length with
  | some first, ':' :: rest =>
    if first.isAlpha then some (String.ofList (scheme.map Char.toLower), rest) else none
  | _, _ => none

/-- The usual port of a scheme of the web. -/
def usualPort? : String → Option Nat
  | "http" => some 80
  | "https" => some 443
  | "ws" => some 80
  | "wss" => some 443
  | "ftp" => some 21
  | _ => none

end GrantConsole.Url
