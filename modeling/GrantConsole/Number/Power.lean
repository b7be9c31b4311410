/-!
# Powers

Powers of two and of ten, and the bound of whole numbers with a sign.
-/

namespace GrantConsole.Number

def twoTo (n : Nat) : Nat :=
  Nat.pow 2 n

def tenTo (n : Nat) : Nat :=
  Nat.pow 10 n

/-- Whole numbers of 64 bits are not below `-int64Bound`, and below `int64Bound`. -/
def int64Bound : Nat := twoTo 63

end GrantConsole.Number
