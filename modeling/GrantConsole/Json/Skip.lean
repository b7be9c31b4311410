import GrantConsole.Json.Reader

/-!
# Passing over JSON values

Members that nobody asks for are passed over. Their text must be JSON all the same, but their
numbers may be of any size, their text may hold lone surrogates and they may nest without bound.
-/

namespace GrantConsole.Json

/-- The key of a member that is passed over, with its colon. -/
def skipKey (cs : List Char) : Except Fault (List Char) :=
  match skipSpace cs with
  | [] => .error .endInObject
  | '"' :: rest => do
    let rest ← skipQuoted rest
    readColon rest
  | _ => .error .keyWanted

mutual
/-- Passes over a value; every call uses up a character. -/
def skipWith : (fuel : Nat) → List Char → Except Fault (List Char)
  | 0, _ => .error .endInValue
  | fuel + 1, cs =>
    match skipSpace cs with
    | [] => .error .endInValue
    | 'n' :: rest => readWord ['u', 'l', 'l'] rest
    | 't' :: rest => readWord ['r', 'u', 'e'] rest
    | 'f' :: rest => readWord ['a', 'l', 's', 'e'] rest
    | '-' :: rest => skipMagnitude rest
    | '"' :: rest => skipQuoted rest
    | '[' :: rest =>
      match skipSpace rest with
      | [] => .error .endInList
      | ']' :: rest => .ok rest
      | rest => skipItemsWith fuel rest
    | '{' :: rest =>
      match skipSpace rest with
      | [] => .error .endInObject
      | '}' :: rest => .ok rest
      | rest => do
        let rest ← skipKey rest
        skipMembersWith fuel rest
    | c :: rest => if Text.isDigit c then skipMagnitude (c :: rest) else .error .valueWanted

/-- Passes over the items of a list, from the start of one. -/
def skipItemsWith : (fuel : Nat) → List Char → Except Fault (List Char)
  | 0, _ => .error .endInList
  | fuel + 1, cs => do
    let cs ← skipWith fuel cs
    match skipSpace cs with
    | [] => .error .endInList
    | ',' :: rest => skipItemsWith fuel rest
    | ']' :: rest => .ok rest
    | _ => .error .listCommaWanted

/-- Passes over the members of an object, from the value of one. -/
def skipMembersWith : (fuel : Nat) → List Char → Except Fault (List Char)
  | 0, _ => .error .endInObject
  | fuel + 1, cs => do
    let cs ← skipWith fuel cs
    match skipSpace cs with
    | [] => .error .endInObject
    | ',' :: rest => do
      let rest ← skipKey rest
      skipMembersWith fuel rest
    | '}' :: rest => .ok rest
    | _ => .error .objectCommaWanted
end

/-- Passes over a value. -/
def skip (cs : List Char) : Except Fault (List Char) :=
  skipWith (2 * cs.length + 2) cs

end GrantConsole.Json
