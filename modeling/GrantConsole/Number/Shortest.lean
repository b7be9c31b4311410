import GrantConsole.Number.Decimal

/-!
# Shortest decimals

The shortest decimal of a binary number that is not zero is the one with the fewest digits that
rounds back to the number, and of those the nearest to it. Grids of one digit, two digits and so on
are tried in turn; on each only the two grid points around the number can be the nearest. A number
that no grid of at most seventeen digits catches is written out exactly.
-/

namespace GrantConsole.Number

/-- Which of two decimals at the same distance is taken. -/
inductive Tie
  | even
  | up
deriving DecidableEq, Repr

/-- The exponent `e` with `10 ^ e ≤ num / den < 10 ^ (e + 1)`, for positive numbers. -/
def floorLog10 (num den : Nat) : Int :=
  let reaches (e : Int) : Bool := den * tenTo e.toNat ≤ num * tenTo (-e).toNat
  let guess := Binary64.floorLog2 num den * 30103 / 100000
  if reaches (guess + 1) then guess + 1 else if reaches guess then guess else guess - 1

namespace Decimal

/-- The decimal equal to the magnitude of a finite binary number. -/
def exact (x : Binary64) : Decimal :=
  ⟨x.coefficient * twoTo x.scale.toNat * Nat.pow 5 (-x.scale).toNat, min x.scale 0⟩

/-- The number nearest to a decimal is the magnitude of this one. -/
def readsBack (x : Binary64) (d : Decimal) : Bool :=
  d.nearest false == x.magnitude

/-- The nearest decimal on the grid `10 ^ unit` that reads back, if there is one. -/
def onGrid? (tie : Tie) (x : Binary64) (unit : Int) : Option Decimal :=
  let num := x.numerator * tenTo (-unit).toNat
  let den := x.denominator * tenTo unit.toNat
  let below : Decimal := ⟨num / den, unit⟩
  let above : Decimal := ⟨num / den + 1, unit⟩
  let twice := 2 * (num % den)
  let upward := decide (den < twice) ||
    (twice == den && (tie == .up || num / den % 2 == 1))
  match below.readsBack x, above.readsBack x with
  | true, true => some (if upward then above else below)
  | true, false => some below
  | false, true => some above
  | false, false => none

/-- The digits without zeros at their end, at most `fuel` of them. -/
def stripZeros : Nat → Decimal → Decimal
  | 0, d => d
  | fuel + 1, d =>
    if d.digits ≠ 0 ∧ d.digits % 10 = 0 then stripZeros fuel ⟨d.digits / 10, d.exponent + 1⟩
    else d

/-- The shortest decimal of the magnitude of a finite number that is not zero. -/
def shortest (tie : Tie) (x : Binary64) : Decimal :=
  let top := floorLog10 x.numerator x.denominator
  let found := (List.range 17).findSome? fun (more : Nat) => onGrid? tie x (top - more)
  let d := found.getD (exact x)
  stripZeros (width d.digits) d

end Decimal

end GrantConsole.Number
