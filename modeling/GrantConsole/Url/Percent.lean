/-!
# Percent encoding

A piece of a URL stands for any text: letters, digits and four marks stand for themselves, and each
byte of any other character is written as a percent sign with two hexadecimal digits.
-/

namespace GrantConsole.Url

/-- The characters that stand for themselves. -/
def isUnreserved (c : Char) : Bool :=
  c.isAlphanum || c == '-' || c == '_' || c == '.' || c == '~'

/-- The hexadecimal digit of a number below sixteen. -/
def hexDigit (n : Nat) : Char :=
  if n < 10 then Char.ofNat (48 + n) else Char.ofNat (55 + n)

def hexValue? (c : Char) : Option Nat :=
  if '0' ≤ c ∧ c ≤ '9' then some (c.toNat - 48)
  else if 'A' ≤ c ∧ c ≤ 'F' then some (c.toNat - 55)
  else if 'a' ≤ c ∧ c ≤ 'f' then some (c.toNat - 87)
  else none

def encodeByte (b : UInt8) : List Char :=
  ['%', hexDigit (b.toNat / 16), hexDigit (b.toNat % 16)]

def encodeChar (c : Char) : List Char :=
  if isUnreserved c then [c] else (String.utf8EncodeChar c).flatMap encodeByte

def encodeChars (cs : List Char) : List Char :=
  cs.flatMap encodeChar

/-- A text as one piece of a URL. -/
def encode (s : String) : String :=
  String.ofList (encodeChars s.toList)

/-- The bytes that a piece of a URL stands for. A percent sign without two digits stands for
itself. -/
def decodeBytes : List Char → List UInt8
  | '%' :: a :: b :: rest =>
    match hexValue? a, hexValue? b with
    | some x, some y => UInt8.ofNat (16 * x + y) :: decodeBytes rest
    | _, _ => String.utf8EncodeChar '%' ++ decodeBytes (a :: b :: rest)
  | c :: rest => String.utf8EncodeChar c ++ decodeBytes rest
  | [] => []

/-- The text that a piece of a URL stands for, unless its bytes are no text. -/
def decode? (s : String) : Option String :=
  String.fromUTF8? ⟨(decodeBytes s.toList).toArray⟩

end GrantConsole.Url
