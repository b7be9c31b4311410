import GrantConsole.Url.Path
import GrantConsole.Url.Scheme

/-!
# Locations

Where the browser is: a path and a query. Paths that are followed are taken from the root if they
start with a slash, and otherwise from the path at hand, which they go on. What leads to another
host leads nowhere.
-/

namespace GrantConsole.Url

structure Location where
  path : String
  query : String
deriving Repr, DecidableEq

/-- The path with its query. -/
def Location.text (l : Location) : String :=
  if l.query.isEmpty then l.path else l.path ++ "?" ++ l.query

/-- A path that starts with a scheme or with the name of a host, as far as links look. -/
def looksAbsolute (cs : List Char) : Bool :=
  let start := cs.takeWhile Char.isAlphanum
  "//".toList.isPrefixOf cs || "tel:".toList.isPrefixOf cs || "mailto:".toList.isPrefixOf cs ||
    "://".toList.isPrefixOf (cs.drop start.length)

/-- A path as a piece of another: without slashes at its front and with one at most at its end. -/
def trimSlashes (cs : List Char) : List Char :=
  let cs := cs.dropWhile isSlash
  let trailing := (cs.reverse.takeWhile isSlash).length
  cs.take (cs.length - (trailing - 1))

/-- A piece that goes on a path has a slash at its front, unless it is none of the path. -/
def asPiece (cs : List Char) : List Char :=
  match trimSlashes cs with
  | [] => []
  | c :: cs => if c = '?' ∨ c = '#' then c :: cs else '/' :: c :: cs

namespace Location

/-- The location under the root that a link names; what follows a number sign does not count. -/
def ofLink (s : String) : Location :=
  let cs := (plainChars s.toList).takeWhile (· != '#')
  let query := (cs.dropWhile (· != '?')).drop 1
  ⟨normalPath (cs.takeWhile (· != '?')), String.ofList (encodeReserved isWebQueryReserved query)⟩

/-- The link names another host. -/
def isElsewhere (s : String) : Bool :=
  let cs := plainChars s.toList
  (takeScheme? cs).isSome ||
    match cs with
    | c :: d :: _ => isWebSlash c && isWebSlash d
    | _ => false

/-- What is followed for a path, from the path at hand. -/
def resolve (here : Location) (path : String) : String :=
  let cs := path.toList
  if looksAbsolute cs then path
  else
    let front := if (cs.head?.any isSlash) then [] else asPiece here.path.toList
    String.ofList (if front.isEmpty then '/' :: trimSlashes cs else front ++ asPiece cs)

/-- Where following a path leads. -/
def follow (here : Location) (path : String) : Location :=
  let link := here.resolve path
  if isElsewhere link then here else ofLink link

end Location

end GrantConsole.Url
