import GrantConsole.Number.Shortest

/-!
# Written amounts

Three ways to write a binary number. The plain form has all places and no exponent. The exchange
form always shows a fraction or an exponent, and turns to an exponent outside of the range
`10 ^ (-5)` to `10 ^ 16`. The money form has two places and commas between groups of three digits.
-/

namespace GrantConsole.Number

open GrantConsole.Text

def zeros (n : Nat) : List Char :=
  List.replicate n '0'

def signChars (negative : Bool) : List Char :=
  if negative then ['-'] else []

namespace Decimal

/-- The place of the point, counted from the front of the digits. -/
def point (d : Decimal) : Int :=
  (natChars d.digits).length + d.exponent

/-- All places, with `tail` where there is no fraction. -/
def plainChars (tail : List Char) (d : Decimal) : List Char :=
  let digits := natChars d.digits
  if d.point ≤ 0 then
    ['0', '.'] ++ zeros (-d.point).toNat ++ digits
  else if digits.length ≤ d.point then
    digits ++ zeros (d.point.toNat - digits.length) ++ tail
  else
    digits.take d.point.toNat ++ ['.'] ++ digits.drop d.point.toNat

/-- One digit before the point, and the exponent with its sign. -/
def exponentChars (d : Decimal) : List Char :=
  let sign := if d.point ≤ 0 then '-' else '+'
  let exponent := 'e' :: sign :: natChars (d.point - 1).natAbs
  match natChars d.digits with
  | [] => exponent
  | [first] => first :: exponent
  | first :: rest => first :: '.' :: rest ++ exponent

end Decimal

namespace Binary64

/-- All places of a number, the point only before a fraction. -/
def plainText (x : Binary64) : String :=
  String.ofList <|
    if x.isNaN then "NaN".toList
    else if !x.isFinite then signChars x.signed ++ "inf".toList
    else if x.isZero then signChars x.signed ++ ['0']
    else signChars x.signed ++ (Decimal.shortest .up x).plainChars []

/-- The exchange form of a finite number. -/
def exchangeChars (x : Binary64) : List Char :=
  if x.isZero then signChars x.signed ++ ['0', '.', '0']
  else
    let d := Decimal.shortest .even x
    signChars x.signed ++
      if -5 < d.point ∧ d.point ≤ 16 then d.plainChars ['.', '0'] else d.exponentChars

def exchangeText (x : Binary64) : String :=
  String.ofList x.exchangeChars

/-- The magnitude in hundredths, rounded. -/
def cents (x : Binary64) : Nat :=
  roundHalfEven (100 * x.numerator) x.denominator

end Binary64

/-- Digits in groups of three, counted from their end. -/
def groupDigits : List Char → List Char
  | [] => []
  | c :: cs =>
    if cs.length % 3 = 0 ∧ cs ≠ [] then c :: ',' :: groupDigits cs else c :: groupDigits cs

/-- A number of two digits. -/
def twoDigits (n : Nat) : List Char :=
  if n < 10 then '0' :: natChars n else natChars n

namespace Binary64

/-- The money form. The sign is that of the number before rounding. -/
def moneyChars (x : Binary64) : List Char :=
  if x.isNaN then "NaN.00".toList
  else if !x.isFinite then signChars x.signed ++ "inf.00".toList
  else
    signChars x.isNegative ++ groupDigits (natChars (x.cents / 100)) ++ ['.'] ++
      twoDigits (x.cents % 100)

def moneyText (x : Binary64) : String :=
  String.ofList x.moneyChars

end Binary64

end GrantConsole.Number
