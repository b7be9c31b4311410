import GrantConsole.Number.Power

/-!
# Whole numbers in text

A whole number is an optional sign and at least one ASCII digit, with nothing around it.
Leading zeros count for nothing. Readers that allow no negative number refuse the sign `-`
even before a zero.
-/

namespace GrantConsole.Text

open GrantConsole.Number

def isDigit (c : Char) : Bool :=
  '0' ≤ c && c ≤ '9'

def digitValue (c : Char) : Nat :=
  c.toNat - '0'.toNat

/-- The number that digits denote, read from the left after `start`. -/
def digitsValue (start : Nat) (cs : List Char) : Nat :=
  cs.foldl (fun n c => 10 * n + digitValue c) start

/-- The value of a nonempty run of digits. -/
def readDigits? (cs : List Char) : Option Nat :=
  if !cs.isEmpty && cs.all isDigit then some (digitsValue 0 cs) else none

/-- A number with an optional sign. -/
def readInt? : List Char → Option Int
  | '+' :: cs => (readDigits? cs).map Int.ofNat
  | '-' :: cs => (readDigits? cs).map fun n => -Int.ofNat n
  | cs => (readDigits? cs).map Int.ofNat

/-- A number that is not negative; a plus sign may stand before it. -/
def readNat? : List Char → Option Nat
  | '+' :: cs => readDigits? cs
  | cs => readDigits? cs

/-- A number of 64 bits with a sign. -/
def readInt64? (cs : List Char) : Option Int64 :=
  (readInt? cs).bind fun n =>
    if -int64Bound ≤ n ∧ n < int64Bound then some (Int64.ofInt n) else none

/-- A number below the bound. -/
def readBelow? (bound : Nat) (cs : List Char) : Option Nat :=
  (readNat? cs).bind fun n => if n < bound then some n else none

/-- The decimal digits of a number, most significant first. -/
def natChars (n : Nat) : List Char :=
  (toString n).toList

end GrantConsole.Text
