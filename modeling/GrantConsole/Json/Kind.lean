import GrantConsole.Json.Reader

/-!
# The wrong kind of value

Where a value of one kind is wanted and another one stands, the fault names both. The value that
stands there is read as far as its name needs: a word, a number or a text whole, of a list or an
object the bracket alone.
-/

namespace GrantConsole.Json

/-- The value at hand, told as the wrong kind for what is wanted. -/
def wrongKind {α : Type} (wanted : String) (cs : List Char) : Except Fault α :=
  match cs with
  | [] => .error .endInValue
  | 'n' :: rest => do
    let _ ← readWord ['u', 'l', 'l'] rest
    .error (.wrongKind .null wanted)
  | 't' :: rest => do
    let _ ← readWord ['r', 'u', 'e'] rest
    .error (.wrongKind (.bool true) wanted)
  | 'f' :: rest => do
    let _ ← readWord ['a', 'l', 's', 'e'] rest
    .error (.wrongKind (.bool false) wanted)
  | '-' :: rest => number true rest
  | '"' :: rest => do
    let (s, _) ← readQuoted rest
    .error (.wrongKind (.text s) wanted)
  | '[' :: _ => .error (.wrongKind .sequence wanted)
  | '{' :: _ => .error (.wrongKind .map wanted)
  | c :: rest => if Text.isDigit c then number false (c :: rest) else .error .valueWanted
where
  number (negative : Bool) (cs : List Char) : Except Fault α := do
    let (n, _) ← readMagnitude negative cs
    match n with
    | .whole n => .error (.wrongKind (.whole n) wanted)
    | .real x => .error (.wrongKind (.real x) wanted)

/-- A text; `wanted` says what it is for. -/
def readText (wanted : String) : Reader String := fun cs =>
  match skipSpace cs with
  | '"' :: rest => readQuoted rest
  | cs => wrongKind wanted cs

end GrantConsole.Json
