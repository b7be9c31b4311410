import GrantConsole.Url.Percent

/-!
# Paths in normal form

A path of a URL is kept in normal form: segments that stand for the place itself or for the place
above are resolved, and characters that may not stand in a path are encoded. In the URLs of the web
a slash may lean either way.
-/

namespace GrantConsole.Url

/-- The pieces between the characters that pass a test. -/
def splitChars (sep : Char → Bool) : List Char → List (List Char)
  | [] => [[]]
  | c :: cs =>
    if sep c then [] :: splitChars sep cs
    else
      match splitChars sep cs with
      | [] => [[c]]
      | piece :: pieces => (c :: piece) :: pieces

/-- A control character, the delete character, or a character beyond ASCII. -/
def isControl (c : Char) : Bool :=
  c.toNat < 0x20 || 0x7E < c.toNat

/-- The characters that are encoded in a fragment. -/
def isFragmentReserved (c : Char) : Bool :=
  isControl c || " \"<>`".toList.contains c

/-- The characters that are encoded in a path. -/
def isPathReserved (c : Char) : Bool :=
  isFragmentReserved c || "#?\x7b\x7d".toList.contains c

/-- The characters that are encoded in a query. -/
def isQueryReserved (c : Char) : Bool :=
  isControl c || " \"#<>".toList.contains c

/-- The characters that are encoded in a query of the web. -/
def isWebQueryReserved (c : Char) : Bool :=
  isQueryReserved c || c == '\''

/-- The characters that are encoded in the name and the password of a user. -/
def isUserReserved (c : Char) : Bool :=
  isPathReserved c || "/:;=@[\\]^|".toList.contains c

def encodeReserved (reserved : Char → Bool) (cs : List Char) : List Char :=
  cs.flatMap fun c => if reserved c then (String.utf8EncodeChar c).flatMap encodeByte else [c]

/-- How a segment moves through a path. -/
inductive Segment
  | here
  | above
  | name (cs : List Char)

def Segment.ofChars (cs : List Char) : Segment :=
  let folded := String.ofList (cs.map Char.toLower)
  if folded = "." ∨ folded = "%2e" then .here
  else if folded = ".." ∨ folded = ".%2e" ∨ folded = "%2e." ∨ folded = "%2e%2e" then .above
  else .name (encodeReserved isPathReserved cs)

/-- A segment that names a drive. Nothing is above it. -/
def isDrive : List Char → Bool
  | [letter, mark] => letter.isAlpha && (mark == ':' || mark == '|')
  | _ => false

/-- The segments above those that are given, the last first. -/
def dropLastSegment : List (List Char) → List (List Char)
  | [] => []
  | segment :: before => if isDrive segment then segment :: before else before

/-- The segments that are left when those before it, the last first, are known. -/
def resolveSegments (before : List (List Char)) : List (List Char) → List (List Char)
  | [] => before.reverse
  | [last] =>
    match Segment.ofChars last with
    | .here => ([] :: before).reverse
    | .above => ([] :: dropLastSegment before).reverse
    | .name cs => (cs :: before).reverse
  | cs :: rest =>
    match Segment.ofChars cs with
    | .here => resolveSegments before rest
    | .above => resolveSegments (dropLastSegment before) rest
    | .name cs => resolveSegments (cs :: before) rest

def isSlash (c : Char) : Bool :=
  c == '/'

/-- A slash as the web has it. -/
def isWebSlash (c : Char) : Bool :=
  c == '/' || c == '\\'

/-- The path in normal form. Its first slash may be missing. -/
def normalPathBy (slash : Char → Bool) (cs : List Char) : List Char :=
  let cs := match cs with
    | c :: rest => if slash c then rest else c :: rest
    | [] => []
  (resolveSegments [] (splitChars slash cs)).flatMap fun segment => '/' :: segment

def normalPath (cs : List Char) : String :=
  String.ofList (normalPathBy isWebSlash cs)

end GrantConsole.Url
