import GrantConsole.Json.Digits
import GrantConsole.Json.Quoted

/-!
# Reading JSON

A reader takes a value off the front of the characters and leaves the rest. The punctuation of
lists and objects is read by `nextItem`, `nextKey`, `endList` and `endObject`, which free values
and records share. Values that are kept nest at most `depth` containers deep; values that are passed over may
nest without bound.
-/

namespace GrantConsole.Json

abbrev Reader (α : Type) := List Char → Except Fault (α × List Char)

def isSpace (c : Char) : Bool :=
  c == ' ' || c == '\n' || c == '\t' || c == '\r'

def skipSpace (cs : List Char) : List Char :=
  cs.dropWhile isSpace

/-- The most containers that a kept value may nest. -/
def depthLimit : Nat := 127

/-- The rest of a bare word. -/
def readWord : List Char → List Char → Except Fault (List Char)
  | [], cs => .ok cs
  | _ :: _, [] => .error .endInValue
  | w :: word, c :: cs => if c = w then readWord word cs else .error .wordWanted

/-- Looks for an item of a list: whether there is one, and the text from its start or after the
closing bracket. -/
def nextItem (first : Bool) (cs : List Char) : Except Fault (Bool × List Char) :=
  match skipSpace cs with
  | [] => .error .endInList
  | ']' :: rest => .ok (false, rest)
  | c :: rest =>
    if first then .ok (true, c :: rest)
    else if c = ',' then
      match skipSpace rest with
      | [] => .error .endInValue
      | ']' :: _ => .error .trailingComma
      | rest => .ok (true, rest)
    else .error .listCommaWanted

/-- The closing bracket of a list that has had all its items. -/
def endList (cs : List Char) : Except Fault (List Char) :=
  match skipSpace cs with
  | [] => .error .endInList
  | ']' :: rest => .ok rest
  | ',' :: rest =>
    match skipSpace rest with
    | ']' :: _ => .error .trailingComma
    | _ => .error .trailingText
  | _ => .error .trailingText

/-- Looks for a member of an object: its key, if there is one. -/
def nextKey (first : Bool) (cs : List Char) : Except Fault (Option String × List Char) :=
  match skipSpace cs with
  | [] => .error .endInObject
  | '}' :: rest => .ok (none, rest)
  | c :: rest =>
    if first then
      if c = '"' then key rest else .error .keyWanted
    else if c = ',' then
      match skipSpace rest with
      | [] => .error .endInValue
      | '"' :: rest => key rest
      | '}' :: _ => .error .trailingComma
      | _ => .error .keyWanted
    else .error .objectCommaWanted
where
  key (cs : List Char) : Except Fault (Option String × List Char) := do
    let (key, rest) ← readQuoted cs
    .ok (some key, rest)

/-- The closing brace of an object that has had all its members. -/
def endObject (cs : List Char) : Except Fault (List Char) :=
  match skipSpace cs with
  | [] => .error .endInObject
  | '}' :: rest => .ok rest
  | ',' :: _ => .error .trailingComma
  | _ => .error .trailingText

/-- The colon between a key and its value. -/
def readColon (cs : List Char) : Except Fault (List Char) :=
  match skipSpace cs with
  | [] => .error .endInObject
  | ':' :: rest => .ok rest
  | _ => .error .colonWanted

/-- The items of a list after its bracket; every item uses up a character. -/
def readItemsWith {α : Type} (item : Reader α) : (fuel : Nat) → (first : Bool) → Reader (List α)
  | 0, _, _ => .error .endInList
  | fuel + 1, first, cs => do
    let (more, cs) ← nextItem first cs
    if more then
      let (a, cs) ← item cs
      let (rest, cs) ← readItemsWith item fuel false cs
      .ok (a :: rest, cs)
    else .ok ([], cs)

def readItems {α : Type} (item : Reader α) : Reader (List α) := fun cs =>
  readItemsWith item (cs.length + 1) true cs

/-- The members of an object after its brace, folded into a state. -/
def readMembersWith {σ : Type} (member : String → σ → Reader σ) :
    (fuel : Nat) → (first : Bool) → σ → Reader σ
  | 0, _, _, _ => .error .endInObject
  | fuel + 1, first, state, cs => do
    let (key, cs) ← nextKey first cs
    match key with
    | none => .ok (state, cs)
    | some key =>
      let (state, cs) ← member key state cs
      readMembersWith member fuel false state cs

def readMembers {σ : Type} (member : String → σ → Reader σ) (start : σ) : Reader σ := fun cs =>
  readMembersWith member (cs.length + 1) true start cs

/-- What is left after a text must be blank. -/
def readEnd (cs : List Char) : Except Fault Unit :=
  if (skipSpace cs).isEmpty then .ok () else .error .trailingText

/-- Applies a reader to a whole text. -/
def readAll {α : Type} (reader : Reader α) (s : String) : Except Fault α := do
  let (a, rest) ← reader s.toList
  readEnd rest
  .ok a

end GrantConsole.Json
