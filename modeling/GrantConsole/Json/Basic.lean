import GrantConsole.Number.Layout

/-!
# JSON values

Free JSON values and what can be wrong with a JSON text. An object is a list of members; the
objects that the reader makes have their keys in increasing order, each once.
-/

namespace GrantConsole

open GrantConsole.Number

inductive Json where
  | null
  | bool (b : Bool)
  | whole (n : Int)
  | real (x : Binary64)
  | text (s : String)
  | array (items : List Json)
  | object (members : List (String × Json))
deriving Repr, Inhabited, BEq

namespace Json

/-- The member of an object under a key. -/
def member? (key : String) : Json → Option Json
  | .object members => members.lookup key
  | _ => none

/-- Members in increasing order of keys, with a new one put in; an old one of its key goes. -/
def insertMember (key : String) (value : Json) : List (String × Json) → List (String × Json)
  | [] => [(key, value)]
  | (k, v) :: rest =>
    if key = k then (key, value) :: rest
    else if key < k then (key, value) :: (k, v) :: rest
    else (k, v) :: insertMember key value rest

/-- What stands where another kind of value is wanted. -/
inductive Found
  | null
  | bool (b : Bool)
  | whole (n : Int)
  | real (x : Binary64)
  | text (s : String)
  | sequence
  | map
deriving Repr, DecidableEq

/-- Why a JSON text could not be read. -/
inductive Fault
  | endInValue
  | endInText
  | endInList
  | endInObject
  | valueWanted
  | wordWanted
  | colonWanted
  | listCommaWanted
  | objectCommaWanted
  | keyWanted
  | trailingComma
  | trailingText
  | badNumber
  | numberTooLarge
  | badEscape
  | controlCharacter
  | loneSurrogate
  | unpairedSurrogate
  | tooDeep
  | wrongKind (found : Found) (wanted : String)
  | missingMember (key : String)
  | repeatedMember (key : String)
  | unknownChoice (found : String) (choices : List String)
  | tooShort (length : Nat) (wanted : String)
  | numberWanted
  | wholeWanted
deriving Repr, DecidableEq

end Json

end GrantConsole
