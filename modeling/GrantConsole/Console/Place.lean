import GrantConsole.Url.Location

/-!
# Places

The pages of the console by their paths. A slash at the end of a path makes no difference. The page
of a new rule goes before the page of the rule that is called `new`.
-/

namespace GrantConsole.Console

open GrantConsole.Url

inductive Place
  | signIn
  | grants
  | overview
  | expenses
  | approvals
  | categories
  | roles
  | users
  | rules
  | newRule
  | rule (id : String)
  | missing
deriving Repr, DecidableEq

namespace Place

/-- The segments of a path, without the empty one that a slash at the end makes; the root has
none. -/
def segments (path : String) : List String :=
  let cs := match path.toList with
    | '/' :: rest => rest
    | cs => cs
  let pieces := splitChars isSlash cs
  let pieces := match pieces.reverse with
    | [] :: before => before.reverse
    | _ => pieces
  pieces.map String.ofList

def ofSegments : List String → Place
  | [] => signIn
  | ["grants"] => grants
  | ["home"] => overview
  | ["expenses"] => expenses
  | ["approvals"] => approvals
  | ["categories"] => categories
  | ["roles"] => roles
  | ["users"] => users
  | ["rules"] => rules
  | ["rules", "new"] => newRule
  | ["rules", id] => if id.isEmpty then missing else rule ((decode? id).getD id)
  | _ => missing

/-- The place under a path. -/
def ofPath (path : String) : Place :=
  ofSegments (segments path)

/-- Two places that are shown by the same page, which stays when one goes to the other. -/
def samePage : Place → Place → Bool
  | rule _, rule _ => true
  | p, q => p == q

end Place

end GrantConsole.Console
