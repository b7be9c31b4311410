import GrantConsole.Json.Free
import GrantConsole.Json.Skip
import GrantConsole.Record.Shape

/-!
# Reading records

Records are read straight from JSON text, so that of two faults the first in the text is told. A
record stands as an object, in which members come in any order and unknown ones are passed over,
or as the list of its fields. Missing members are told at the end of the object, in the order of
declaration.
-/

namespace GrantConsole.Record

open GrantConsole.Number GrantConsole.Json

def readFlag : Reader Bool := fun cs =>
  match skipSpace cs with
  | 't' :: rest => do
    let rest ← readWord ['r', 'u', 'e'] rest
    .ok (true, rest)
  | 'f' :: rest => do
    let rest ← readWord ['a', 'l', 's', 'e'] rest
    .ok (false, rest)
  | cs => wrongKind "a boolean" cs

/-- The binary number nearest to a whole one. -/
def realOfInt (n : Int) : Binary64 :=
  Binary64.ofRatio (n < 0) n.natAbs 1

def Numeral.toReal : Numeral → Binary64
  | .whole n => realOfInt n
  | .real x => x

def readReal (negative : Bool) : Reader Binary64 := fun cs => do
  let (n, rest) ← readMagnitude negative cs
  .ok (Numeral.toReal n, rest)

def readAmount : Reader Binary64 := fun cs =>
  match skipSpace cs with
  | '-' :: rest => readReal true rest
  | c :: rest =>
    if Text.isDigit c then readReal false (c :: rest) else wrongKind "f64" (c :: rest)
  | [] => .error .endInValue

/-- The integer that a binary number denotes, if it denotes one. -/
def integerOfReal? (x : Binary64) : Option Int :=
  if x.isFinite ∧ x.numerator % x.denominator = 0 then
    let n : Int := x.numerator / x.denominator
    some (if x.signed then -n else n)
  else none

/--
A whole number of 64 bits. A number beyond that range is taken as a binary number, which is
allowed up to `2 ^ 63` itself; that one is cut to the largest whole number.
-/
def coerceWhole : Json → Except Fault Int64
  | .whole n =>
    if -int64Bound ≤ n ∧ n < int64Bound then .ok (Int64.ofInt n) else ofReal (realOfInt n)
  | .real x => ofReal x
  | _ => .error .numberWanted
where
  ofReal (x : Binary64) : Except Fault Int64 :=
    match integerOfReal? x with
    | some n =>
      if -int64Bound ≤ n ∧ n ≤ int64Bound then .ok (Int64.ofInt (min n (int64Bound - 1)))
      else .error .wholeWanted
    | none => .error .wholeWanted

/-- The choice with a spelling. -/
def chooseSpelled {α : Type} (spell : α → String) (choices : List α) (s : String) :
    Except Fault α :=
  match choices.find? fun a => spell a == s with
  | some a => .ok a
  | none => .error (.unknownChoice s (choices.map spell))

/-- Null, after the colon of a choice that stands as an object. -/
def readUnit : Reader Unit := fun cs =>
  match skipSpace cs with
  | 'n' :: rest => do
    let rest ← readWord ['u', 'l', 'l'] rest
    .ok ((), rest)
  | cs => wrongKind "unit" cs

/-- A choice: its spelling, or an object that has the spelling as its key and null as its value. -/
def readChoice {α : Type} (spell : α → String) (choices : List α) (depth : Nat) :
    Reader α := fun cs =>
  match skipSpace cs with
  | [] => .error .endInValue
  | '"' :: rest => do
    let (s, rest) ← readQuoted rest
    let a ← chooseSpelled spell choices s
    .ok (a, rest)
  | '{' :: rest =>
    if depth = 0 then .error .tooDeep
    else do
      let (s, rest) ← readText "variant identifier" rest
      let a ← chooseSpelled spell choices s
      let rest ← readColon rest
      let (_, rest) ← readUnit rest
      match skipSpace rest with
      | [] => .error .endInObject
      | '}' :: rest => .ok (a, rest)
      | _ => .error .valueWanted
  | _ => .error .valueWanted

/-- The members of a record that have been read so far. -/
@[reducible] def Fields.Slots {β : Type} : Fields β → Type
  | .nil => Unit
  | .cons (α := α) _ _ _ rest => Option α × rest.Slots

namespace Fields

def emptySlots {β : Type} : (fields : Fields β) → fields.Slots
  | .nil => ()
  | .cons _ _ _ rest => (none, rest.emptySlots)

/-- The values of a record whose object has been read. -/
def fill {β : Type} : (fields : Fields β) → fields.Slots → Except Fault β
  | .nil, _ => .ok ()
  | .cons key _ presence rest, slots => do
    let a ← match slots.1, presence.absent? with
      | some a, _ => .ok a
      | none, some a => .ok a
      | none, none => .error (.missingMember key)
    let b ← rest.fill slots.2
    .ok (a, b)

end Fields

mutual
def Shape.read {α : Type} : Shape α → (depth : Nat) → Reader α
  | .text, _, cs => readText "a string" cs
  | .flag, _, cs => readFlag cs
  | .amount, _, cs => readAmount cs
  | .whole, depth, cs => do
    let (value, rest) ← Json.read depth cs
    let n ← coerceWhole value
    .ok (n, rest)
  | .choice spell choices, depth, cs => readChoice spell choices depth cs
  | .optional inner, depth, cs =>
    match skipSpace cs with
    | 'n' :: rest => do
      let rest ← readWord ['u', 'l', 'l'] rest
      .ok (none, rest)
    | cs => do
      let (a, rest) ← inner.read depth cs
      .ok (some a, rest)
  | .list item, depth, cs =>
    match skipSpace cs with
    | '[' :: rest =>
      match depth with
      | 0 => .error .tooDeep
      | depth + 1 => readItems (item.read depth) rest
    | cs => wrongKind "a sequence" cs
  | .record name fields make _, depth, cs =>
    match skipSpace cs with
    | '{' :: rest =>
      match depth with
      | 0 => .error .tooDeep
      | depth + 1 => do
        let (slots, rest) ← readMembers (fun key slots cs => fields.place depth key slots cs)
          fields.emptySlots rest
        let b ← fields.fill slots
        .ok (make b, rest)
    | '[' :: rest =>
      match depth with
      | 0 => .error .tooDeep
      | depth + 1 => do
        let (b, rest) ← fields.readInOrder depth (describeLength name fields.length) 0 true rest
        .ok (make b, rest)
    | cs => wrongKind ("struct " ++ name) cs

/-- Reads a member into its slot; a member of an unknown key is passed over. -/
def Fields.place {β : Type} : (fields : Fields β) → (depth : Nat) → (key : String) →
    fields.Slots → Reader fields.Slots
  | .nil, _, _, slots, cs => do
    let cs ← readColon cs
    let cs ← skip cs
    .ok (slots, cs)
  | .cons key shape _ rest, depth, k, slots, cs =>
    if k = key then
      match slots.1 with
      | some _ => .error (.repeatedMember key)
      | none => do
        let cs ← readColon cs
        let (a, cs) ← shape.read depth cs
        .ok ((some a, slots.2), cs)
    else do
      let (others, cs) ← rest.place depth k slots.2 cs
      .ok ((slots.1, others), cs)

/-- Reads the fields as the items of a list, up to and with its closing bracket. -/
def Fields.readInOrder {β : Type} : (fields : Fields β) → (depth : Nat) → (wanted : String) →
    (index : Nat) → (first : Bool) → Reader β
  | .nil, _, _, _, _, cs => do
    let rest ← endList cs
    .ok ((), rest)
  | .cons _ shape presence rest, depth, wanted, index, first, cs => do
    let (more, cs) ← nextItem first cs
    if more then
      let (a, cs) ← shape.read depth cs
      let (b, cs) ← rest.readInOrder depth wanted (index + 1) false cs
      .ok ((a, b), cs)
    else
      match presence.cut? with
      | none => .error (.tooShort index wanted)
      | some a => do
        let (b, cs) ← rest.readInOrder depth wanted (index + 1) first (']' :: cs)
        .ok ((a, b), cs)
end

/-- The value of a whole JSON text. -/
def Shape.parse {α : Type} (shape : Shape α) (s : String) : Except Fault α :=
  readAll (shape.read depthLimit) s

end GrantConsole.Record
