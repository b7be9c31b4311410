import GrantConsole.Record.Reader

/-!
# Records as values

The record that a JSON value stands for, when it stands as an object and its choices as texts. It is
the other way of `Shape.write`; what is wrong with a value is not told.
-/

namespace GrantConsole.Record

open GrantConsole.Json

mutual
def Shape.ofJson? {α : Type} : Shape α → Json → Option α
  | .text, v =>
    match v with
    | .text s => some s
    | _ => none
  | .flag, v =>
    match v with
    | .bool b => some b
    | _ => none
  | .amount, v =>
    match v with
    | .whole n => some (realOfInt n)
    | .real x => some x
    | _ => none
  | .whole, v => (coerceWhole v).toOption
  | .choice spell choices, v =>
    match v with
    | .text s => choices.find? fun a => spell a == s
    | _ => none
  | .optional inner, v =>
    match v with
    | .null => some none
    | v => (inner.ofJson? v).map some
  | .list item, v =>
    match v with
    | .array items => items.mapM fun v => item.ofJson? v
    | _ => none
  | .record _ fields make _, v =>
    match v with
    | .object members => (fields.ofMembers? members).map make
    | _ => none

/-- The fields that the members of an object stand for. -/
def Fields.ofMembers? {β : Type} : Fields β → List (String × Json) → Option β
  | .nil, _ => some ()
  | .cons key shape presence rest, members => do
    let a ← match members.lookup key with
      | some v => shape.ofJson? v
      | none => presence.absent?
    let b ← rest.ofMembers? members
    some (a, b)
end

end GrantConsole.Record
