import GrantConsole.Number.Power
import GrantConsole.Number.Rounding

/-!
# Binary numbers of 64 bits

An amount is a binary number of 64 bits: a sign, an exponent of eleven bits and a fraction of
fifty-two. A finite one denotes `coefficient * 2 ^ scale`. Rational numbers round to the
nearest of them, a half going to the even coefficient, and leave the finite range for infinity.
-/

namespace GrantConsole.Number

structure Binary64 where
  bits : UInt64
deriving DecidableEq, Repr, Inhabited

namespace Binary64

def ofNat (n : Nat) : Binary64 := ⟨UInt64.ofNat n⟩

def zero : Binary64 := ofNat 0

/-- The sign bit. -/
def signed (x : Binary64) : Bool :=
  twoTo 63 ≤ x.bits.toNat

def exponentBits (x : Binary64) : Nat :=
  x.bits.toNat / twoTo 52 % twoTo 11

def fraction (x : Binary64) : Nat :=
  x.bits.toNat % twoTo 52

def isFinite (x : Binary64) : Bool :=
  x.exponentBits != 2047

def isNaN (x : Binary64) : Bool :=
  x.exponentBits == 2047 && x.fraction != 0

/-- The integer part of the magnitude of a finite number. -/
def coefficient (x : Binary64) : Nat :=
  if x.exponentBits = 0 then x.fraction else twoTo 52 + x.fraction

/-- The power of two that scales the coefficient. -/
def scale (x : Binary64) : Int :=
  (max x.exponentBits 1 : Nat) - 1075

/-- The magnitude is `numerator / denominator`. -/
def numerator (x : Binary64) : Nat :=
  x.coefficient * twoTo x.scale.toNat

def denominator (x : Binary64) : Nat :=
  twoTo (-x.scale).toNat

def isZero (x : Binary64) : Bool :=
  x.exponentBits == 0 && x.fraction == 0

/-- Below zero; minus zero is not. -/
def isNegative (x : Binary64) : Bool :=
  x.signed && !x.isZero && !x.isNaN

def magnitude (x : Binary64) : Binary64 :=
  ofNat (x.bits.toNat % twoTo 63)

/-- The bits of infinity. -/
def infinityBits : Nat := 2047 * twoTo 52

def withSign (negative : Bool) (magnitudeBits : Nat) : Binary64 :=
  ofNat (magnitudeBits + if negative then twoTo 63 else 0)

def infinity (negative : Bool) : Binary64 :=
  withSign negative infinityBits

def nan : Binary64 := ofNat (infinityBits + twoTo 51)

/-- The exponent `e` with `2 ^ e ≤ num / den < 2 ^ (e + 1)`, for positive numbers. -/
def floorLog2 (num den : Nat) : Int :=
  let guess : Int := (Nat.log2 num : Int) - Nat.log2 den
  if den * twoTo guess.toNat ≤ num * twoTo (-guess).toNat then guess else guess - 1

/--
The bits of the number nearest to `num / den`. With `e` the exponent of its unit in the last
place, counted from the smallest one, the bits are `e * 2 ^ 52` plus the rounded coefficient;
a coefficient that rounds up to `2 ^ 53` carries into the exponent by itself.
-/
def nearestBits (num den : Nat) : Nat :=
  if num = 0 then 0
  else
    let unit := max (floorLog2 num den - 52) (-1074)
    let coefficient := roundHalfEven (num * twoTo (-unit).toNat) (den * twoTo unit.toNat)
    min ((unit + 1074).toNat * twoTo 52 + coefficient) infinityBits

/-- The number nearest to a quotient, with a sign. -/
def ofRatio (negative : Bool) (num den : Nat) : Binary64 :=
  withSign negative (nearestBits num den)

/-- The rounded product of two magnitudes. -/
def times (x y : Binary64) : Binary64 :=
  ofRatio false (x.numerator * y.numerator) (x.denominator * y.denominator)

/-- The rounded quotient of two magnitudes, the second of which is not zero. -/
def dividedBy (x y : Binary64) : Binary64 :=
  ofRatio false (x.numerator * y.denominator) (x.denominator * y.numerator)

end Binary64

end GrantConsole.Number
