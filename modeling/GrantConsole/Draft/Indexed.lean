/-!
# Entries by index

A change of one entry of a list, where the index of the entry may be past the end.
-/

namespace GrantConsole

variable {α : Type}

/-- The list with one entry changed. -/
def editAt? (items : List α) (index : Nat) (edit : α → α) : Option (List α) :=
  if index < items.length then some (items.modify index edit) else none

/-- The list without one entry. -/
def removeAt? (items : List α) (index : Nat) : Option (List α) :=
  if index < items.length then some (items.eraseIdx index) else none

end GrantConsole
