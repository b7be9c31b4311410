import GrantConsole.Json.Kind

/-!
# Free values

A free value is kept whole. An object whose first key is `embeddedKey` is not kept as it stands:
its only member is a text, and the object stands for the value of that text. Embedded texts may
hold embedded texts; a text is longer than those inside it, so its length bounds how far that goes.
-/

namespace GrantConsole.Json

def Numeral.toJson : Numeral → Json
  | .whole n => .whole n
  | .real x => .real x

def readNumber (negative : Bool) : Reader Json := fun cs => do
  let (n, cs) ← readMagnitude negative cs
  .ok (n.toJson, cs)

/-- The first key of an object that stands for the value of a text. -/
def embeddedKey : String := "$serde_json::private::RawValue"

/-- What follows the key of an embedded text, for an object after its brace that starts so. -/
def embedded? (cs : List Char) : Option (List Char) :=
  match nextKey true cs with
  | .ok (some key, rest) => if key = embeddedKey then some rest else none
  | _ => none

/-- An embedded text after its key, and the end of its object. A fault inside the text comes
before one behind it. -/
def readEmbedded (value : String → Except Fault Json) : Reader Json := fun cs => do
  let cs ← readColon cs
  let (s, cs) ← readText "raw value" cs
  let v ← value s
  let cs ← endObject cs
  .ok (v, cs)

/-- A free value, given the values of embedded texts. Of members with the same key the last one
counts. -/
def readWith (value : String → Except Fault Json) : (depth : Nat) → Reader Json := fun depth cs =>
  match skipSpace cs with
  | [] => .error .endInValue
  | 'n' :: rest => do
    let rest ← readWord ['u', 'l', 'l'] rest
    .ok (.null, rest)
  | 't' :: rest => do
    let rest ← readWord ['r', 'u', 'e'] rest
    .ok (.bool true, rest)
  | 'f' :: rest => do
    let rest ← readWord ['a', 'l', 's', 'e'] rest
    .ok (.bool false, rest)
  | '-' :: rest => readNumber true rest
  | '"' :: rest => do
    let (s, rest) ← readQuoted rest
    .ok (.text s, rest)
  | '[' :: rest =>
    match depth with
    | 0 => .error .tooDeep
    | depth + 1 => do
      let (items, rest) ← readItems (readWith value depth) rest
      .ok (.array items, rest)
  | '{' :: rest =>
    match depth, embedded? rest with
    | 0, _ => .error .tooDeep
    | _ + 1, some rest => readEmbedded value rest
    | depth + 1, none => do
      let (members, rest) ← readMembers (fun key members cs => do
        let cs ← readColon cs
        let (v, cs) ← readWith value depth cs
        .ok (insertMember key v members, cs)) [] rest
      .ok (.object members, rest)
  | c :: rest => if Text.isDigit c then readNumber false (c :: rest) else .error .valueWanted

/-- The value of an embedded text, which has the whole depth for itself; `fuel` need not exceed
its length. -/
def embeddedValue : (fuel : Nat) → String → Except Fault Json
  | 0, _ => .error .endInValue
  | fuel + 1, s => readAll (readWith (embeddedValue fuel) depthLimit) s

/-- A free value. -/
def read (depth : Nat) : Reader Json := fun cs =>
  readWith (embeddedValue cs.length) depth cs

/-- The value of a text whose containers nest at most `depth` deep. -/
def parseWithin (depth : Nat) (s : String) : Except Fault Json :=
  readAll (read depth) s

def parse (s : String) : Except Fault Json :=
  parseWithin depthLimit s

end GrantConsole.Json
