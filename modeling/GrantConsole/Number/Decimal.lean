import GrantConsole.Number.Binary64
import GrantConsole.Text.Whole

/-!
# Decimal numbers

A decimal number is a natural number scaled by a power of ten. `Decimal.nearest` is the binary
number next to it. Typed numbers are read as a sign, digits with at most one point among them
and an optional exponent, or as one of the words for infinity and for no number.
-/

namespace GrantConsole.Number

open GrantConsole.Text

/-- The number `digits * 10 ^ exponent`. -/
structure Decimal where
  digits : Nat
  exponent : Int
deriving DecidableEq, Repr

namespace Decimal

/-- Count of decimal digits; zero has none. -/
def width (n : Nat) : Nat :=
  if n = 0 then 0 else (natChars n).length

/--
The binary number nearest to a decimal one. Beyond `10 ^ 310` every number is infinite and below
`10 ^ (-330)` every number is zero, so that huge exponents are never expanded.
-/
def nearest (negative : Bool) (d : Decimal) : Binary64 :=
  if d.digits = 0 then Binary64.withSign negative 0
  else if 310 < d.exponent then Binary64.infinity negative
  else if d.exponent + width d.digits < -330 then Binary64.withSign negative 0
  else Binary64.ofRatio negative (d.digits * tenTo d.exponent.toNat) (tenTo (-d.exponent).toNat)

end Decimal

/-- The exponent part of a typed number, which may be missing. -/
def readExponent? : List Char → Option Int
  | [] => some 0
  | c :: cs => if c = 'e' ∨ c = 'E' then readInt? cs else none

/-- A typed number without its sign. -/
def readDecimal? (cs : List Char) : Option Decimal :=
  let whole := cs.takeWhile isDigit
  let rest := cs.dropWhile isDigit
  let (part, rest) := match rest with
    | '.' :: rest => (rest.takeWhile isDigit, rest.dropWhile isDigit)
    | _ => ([], rest)
  if whole.isEmpty && part.isEmpty then none
  else (readExponent? rest).map fun exponent =>
    ⟨digitsValue 0 (whole ++ part), exponent - part.length⟩

/-- A typed number: digits, or a word in letters of any case. -/
def readMagnitude? (negative : Bool) (cs : List Char) : Option Binary64 :=
  match readDecimal? cs with
  | some d => some (d.nearest negative)
  | none =>
    let word := String.ofList (cs.map Char.toLower)
    if word = "inf" ∨ word = "infinity" then some (Binary64.infinity negative)
    else if word = "nan" then some Binary64.nan
    else none

def readBinary64? : List Char → Option Binary64
  | '+' :: cs => readMagnitude? false cs
  | '-' :: cs => readMagnitude? true cs
  | cs => readMagnitude? false cs

end GrantConsole.Number
