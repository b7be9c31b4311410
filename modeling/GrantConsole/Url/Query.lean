import GrantConsole.Url.Percent

/-!
# Query strings

A path with a query: pairs of keys and values, of which the values are encoded. The keys are the
console's own and need no encoding.
-/

namespace GrantConsole.Url

/-- A key with its value. -/
def pairText (pair : String × String) : String :=
  pair.1 ++ "=" ++ encode pair.2

/-- A path with pairs asked of it; with no pairs it stays as it is. -/
def withQuery (path : String) (pairs : List (String × String)) : String :=
  if pairs.isEmpty then path else path ++ "?" ++ "&".intercalate (pairs.map pairText)

end GrantConsole.Url
