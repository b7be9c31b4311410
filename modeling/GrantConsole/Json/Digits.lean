import GrantConsole.Json.Basic

/-!
# Numbers in JSON text

A number without fraction and exponent that fits 64 bits, with or without a sign, is read as a
whole number; minus zero and every other number is read as a binary one. The binary number is the
digits that fit an unsigned word, scaled once by a power of ten, with one rounding each.
-/

namespace GrantConsole.Json

open GrantConsole.Number GrantConsole.Text

inductive Numeral
  | whole (n : Int)
  | real (x : Binary64)
deriving Repr, DecidableEq

def wordBound : Nat := twoTo 64

/-- The nearest number to a power of ten. -/
def powerOfTen (n : Nat) : Binary64 :=
  Decimal.nearest false ⟨1, n⟩

/--
A magnitude scaled by `10 ^ exponent`. Powers beyond `10 ^ 308` are applied in parts; dividing
stops at zero, and a product out of range is a fault.
-/
def scaleByTen : (fuel : Nat) → Binary64 → (exponent : Int) → Except Fault Binary64
  | 0, x, _ => .ok x
  | fuel + 1, x, exponent =>
    if exponent.natAbs ≤ 308 then
      if 0 ≤ exponent then
        let product := x.times (powerOfTen exponent.natAbs)
        if product.isFinite then .ok product else .error .numberTooLarge
      else .ok (x.dividedBy (powerOfTen exponent.natAbs))
    else if x.isZero then .ok x
    else if 0 ≤ exponent then .error .numberTooLarge
    else scaleByTen fuel (x.dividedBy (powerOfTen 308)) (exponent + 308)

/-- The binary number of a significand and a power of ten. -/
def realOfParts (negative : Bool) (significand : Nat) (exponent : Int) : Except Fault Binary64 := do
  let x ← scaleByTen 5 (Binary64.ofRatio false significand 1) exponent
  .ok (Binary64.withSign negative x.bits.toNat)

/-- Takes digits into the significand while it fits a word; the rest is only counted. -/
def takeDigits : (significand : Nat) → (taken dropped : Nat) → List Char → Nat × Nat × Nat
  | significand, taken, dropped, [] => (significand, taken, dropped)
  | significand, taken, dropped, c :: cs =>
    let next := 10 * significand + digitValue c
    if dropped = 0 ∧ next < wordBound then takeDigits next (taken + 1) 0 cs
    else takeDigits significand taken (dropped + 1) cs

/-- The sign and the digits of an exponent, after its letter. -/
def readExponentDigits (cs : List Char) : Except Fault (Int × List Char) :=
  let (negative, cs) := match cs with
    | '+' :: rest => (false, rest)
    | '-' :: rest => (true, rest)
    | rest => (false, rest)
  match cs with
  | [] => .error .endInValue
  | c :: _ =>
    if isDigit c then
      let n := digitsValue 0 (cs.takeWhile isDigit)
      .ok (if negative then -(n : Int) else n, cs.dropWhile isDigit)
    else .error .badNumber

/-- The largest exponent that is not out of range by itself. -/
def exponentBound : Nat := twoTo 31 - 1

/-- The value of a number with a written exponent. -/
def realOfExponent (negative : Bool) (significand : Nat) (before written : Int) :
    Except Fault Binary64 :=
  if exponentBound < written.natAbs then
    if significand ≠ 0 ∧ 0 < written then .error .numberTooLarge
    else .ok (Binary64.withSign negative 0)
  else realOfParts negative significand (before + written)

/-- What follows the digits of a number and its fraction, if it has one. -/
def readRealEnd (negative : Bool) (significand : Nat) (exponent : Int) (cs : List Char) :
    Except Fault (Numeral × List Char) :=
  match cs with
  | c :: rest =>
    if c = 'e' ∨ c = 'E' then do
      let (written, rest) ← readExponentDigits rest
      let x ← realOfExponent negative significand exponent written
      .ok (.real x, rest)
    else do
      let x ← realOfParts negative significand exponent
      .ok (.real x, cs)
  | [] => do
    let x ← realOfParts negative significand exponent
    .ok (.real x, [])

/-- What follows the digits before the point; `dropped` of them did not fit the significand. -/
def readNumberEnd (negative : Bool) (significand dropped : Nat) (cs : List Char) :
    Except Fault (Numeral × List Char) :=
  match cs with
  | '.' :: rest =>
    let part := rest.takeWhile isDigit
    let rest := rest.dropWhile isDigit
    if part.isEmpty then
      if rest.isEmpty then .error .endInValue else .error .badNumber
    else
      let (significand, taken, _) := takeDigits significand 0 0 part
      readRealEnd negative significand (dropped - taken) rest
  | c :: _ =>
    if c = 'e' ∨ c = 'E' ∨ dropped ≠ 0 then readRealEnd negative significand dropped cs
    else wholeEnd
  | [] => if dropped ≠ 0 then readRealEnd negative significand dropped cs else wholeEnd
where
  /-- A whole number where it fits a word, and else a binary one. -/
  wholeEnd : Except Fault (Numeral × List Char) :=
    if !negative then .ok (.whole significand, cs)
    else if significand = 0 ∨ int64Bound < significand then
      .ok (.real (Binary64.ofRatio true significand 1), cs)
    else .ok (.whole (-(significand : Int)), cs)

/-- A number after its sign. -/
def readMagnitude (negative : Bool) (cs : List Char) : Except Fault (Numeral × List Char) :=
  match cs with
  | [] => .error .endInValue
  | '0' :: rest =>
    match rest with
    | c :: _ => if isDigit c then .error .badNumber else readNumberEnd negative 0 0 rest
    | [] => readNumberEnd negative 0 0 rest
  | c :: _ =>
    if isDigit c then
      let (significand, _, dropped) := takeDigits 0 0 0 (cs.takeWhile isDigit)
      readNumberEnd negative significand dropped (cs.dropWhile isDigit)
    else .error .badNumber

/-- Passes over an exponent, after its letter. -/
def skipExponent (cs : List Char) : Except Fault (List Char) :=
  let cs := match cs with
    | '+' :: rest => rest
    | '-' :: rest => rest
    | rest => rest
  match cs with
  | c :: rest => if isDigit c then .ok (rest.dropWhile isDigit) else .error .badNumber
  | [] => .error .badNumber

/-- Passes over the end of a number. -/
def skipRealEnd (cs : List Char) : Except Fault (List Char) :=
  match cs with
  | c :: rest => if c = 'e' ∨ c = 'E' then skipExponent rest else .ok cs
  | [] => .ok []

def skipNumberEnd (cs : List Char) : Except Fault (List Char) :=
  match cs with
  | '.' :: rest =>
    if (rest.takeWhile isDigit).isEmpty then .error .badNumber
    else skipRealEnd (rest.dropWhile isDigit)
  | _ => skipRealEnd cs

/-- Passes over a number, after its sign. -/
def skipMagnitude (cs : List Char) : Except Fault (List Char) :=
  match cs with
  | '0' :: rest =>
    match rest with
    | c :: _ => if isDigit c then .error .badNumber else skipNumberEnd rest
    | [] => .ok []
  | c :: _ => if isDigit c then skipNumberEnd (cs.dropWhile isDigit) else .error .badNumber
  | [] => .error .badNumber

end GrantConsole.Json
