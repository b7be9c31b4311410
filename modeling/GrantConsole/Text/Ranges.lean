/-!
# Ranges of characters

A property of characters as a table: ranges of code points in increasing order, both ends included.
-/

namespace GrantConsole.Text

/-- Whether a code point lies in one of the ranges of a table. -/
def inRanges (n : Nat) : List (Nat × Nat) → Bool
  | [] => false
  | (first, last) :: rest => first ≤ n && (n ≤ last || inRanges n rest)

end GrantConsole.Text
