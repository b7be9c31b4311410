import GrantConsole.Json.Quoted

/-!
# Writing JSON

The compact text of a value: no blanks, members in the order in which the object holds them. A
number that is not finite has no JSON form and is written as null.
-/

namespace GrantConsole.Json

open GrantConsole.Number

def realChars (x : Binary64) : List Char :=
  if x.isFinite then x.exchangeChars else ['n', 'u', 'l', 'l']

mutual
def print : Json → List Char
  | .null => ['n', 'u', 'l', 'l']
  | .bool true => ['t', 'r', 'u', 'e']
  | .bool false => ['f', 'a', 'l', 's', 'e']
  | .whole n => (toString n).toList
  | .real x => realChars x
  | .text s => quoteChars s.toList
  | .array items => '[' :: printItems items
  | .object members => '{' :: printMembers members

/-- The items of a list and its closing bracket. -/
def printItems : List Json → List Char
  | [] => [']']
  | [item] => print item ++ [']']
  | item :: items => print item ++ ',' :: printItems items

/-- The members of an object and its closing brace. -/
def printMembers : List (String × Json) → List Char
  | [] => ['}']
  | [(key, value)] => quoteChars key.toList ++ ':' :: print value ++ ['}']
  | (key, value) :: members =>
    quoteChars key.toList ++ ':' :: print value ++ ',' :: printMembers members
end

def compact (v : Json) : String :=
  String.ofList v.print

end GrantConsole.Json
