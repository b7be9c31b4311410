import GrantConsole.Json.Printer
import GrantConsole.Record.Shape

/-!
# Writing records

The JSON value of a record: its fields in the order of declaration, without the members that are
omitted for their values.
-/

namespace GrantConsole.Record

mutual
def Shape.write {α : Type} : Shape α → α → Json
  | .text, s => .text s
  | .flag, b => .bool b
  | .amount, x => .real x
  | .whole, n => .whole n.toInt
  | .choice spell _, a => .text (spell a)
  | .optional _, none => .null
  | .optional inner, some a => inner.write a
  | .list item, items => .array (items.map fun a => item.write a)
  | .record _ fields _ parts, a => .object (fields.write (parts a))

def Fields.write {β : Type} : Fields β → β → List (String × Json)
  | .nil, _ => []
  | .cons key shape presence rest, (a, b) =>
    if presence.omits a then rest.write b else (key, shape.write a) :: rest.write b
end

end GrantConsole.Record
