import GrantConsole.Number.Binary64

/-!
# Shapes of records

A shape says how the values of one type stand in JSON: it is all that the reader and the writer of
a record know about it. A record is a list of fields in the order of their declaration; each field
says what a missing member stands for and which values are left out when the record is written.
-/

namespace GrantConsole.Record

open GrantConsole.Number

/-- What holds for a member that is not there. -/
structure Presence (α : Type) where
  /-- The value of a member that an object lacks. -/
  absent? : Option α
  /-- The value of an item that a list is too short for. -/
  cut? : Option α
  /-- The values for which no member is written. -/
  omits : α → Bool

namespace Presence

variable {α : Type}

/-- The member has to be there. -/
def required : Presence α := ⟨none, none, fun _ => false⟩

/-- A missing member has a value of its own. -/
def default (a : α) : Presence α := ⟨some a, some a, fun _ => false⟩

/-- A missing member is no value, and no value is written as null. -/
def nullable : Presence (Option α) := default none

/-- Only an object may lack the member. -/
def named : Presence (Option α) := ⟨some none, none, fun _ => false⟩

/-- A missing member is no value, and no value is not written. -/
def omittable : Presence (Option α) := ⟨some none, some none, Option.isNone⟩

end Presence

mutual
inductive Shape : Type → Type 1
  | text : Shape String
  | flag : Shape Bool
  | amount : Shape Binary64
  | whole : Shape Int64
  /-- One of finitely many values, each with a spelling. -/
  | choice {α : Type} (spell : α → String) (choices : List α) : Shape α
  | optional {α : Type} (inner : Shape α) : Shape (Option α)
  | list {α : Type} (item : Shape α) : Shape (List α)
  /-- A named record, made from the values of its fields and taken apart into them. -/
  | record {α β : Type} (name : String) (fields : Fields β) (make : β → α) (parts : α → β) : Shape α

inductive Fields : Type → Type 1
  | nil : Fields Unit
  | cons {α β : Type} (key : String) (shape : Shape α) (presence : Presence α)
      (rest : Fields β) : Fields (α × β)
end

namespace Fields

def length {β : Type} : Fields β → Nat
  | nil => 0
  | cons _ _ _ rest => rest.length + 1

end Fields

/-- A type whose values stand in JSON in one way. -/
class Shaped (α : Type) where
  shape : Shape α

instance : Shaped String := ⟨.text⟩

instance {α : Type} [Shaped α] : Shaped (List α) := ⟨.list Shaped.shape⟩

/-- A record's name with the number of its fields. -/
def describeLength (name : String) (length : Nat) : String :=
  "struct " ++ name ++ " with " ++ toString length ++ if length = 1 then " element" else " elements"

end GrantConsole.Record
