import GrantConsole.Text.Whole
import GrantConsole.Url.Domain

/-!
# Hosts

The host of a URL is a domain name or an address. An address of four bytes may be written with
fewer numbers, the last of which then covers more bytes, and its numbers in base eight, ten or
sixteen; an address of eight pieces may leave out one run of zeros.
-/

namespace GrantConsole.Url

open GrantConsole.Text

inductive Host
  | domain (name : String)
  | fourBytes (address : Nat)
  | eightPieces (pieces : List Nat)
deriving Repr, DecidableEq

/-- The number that the digits of a base stand for; no digits stand for zero. -/
def readInBase? (base : Nat) (cs : List Char) : Option Nat :=
  cs.foldlM (fun n c => do
    let d ← hexValue? c
    if d < base then some (base * n + d) else none) 0

/-- A number of an address: base sixteen after `0x`, base eight after `0`. -/
def readHostNumber? : List Char → Option Nat
  | [] => none
  | '0' :: 'x' :: cs => readInBase? 16 cs
  | '0' :: 'X' :: cs => readInBase? 16 cs
  | '0' :: c :: cs => readInBase? 8 (c :: cs)
  | cs => readInBase? 10 cs

/-- The pieces of a name between its points, without the empty one after a point at the end. -/
def hostPieces (cs : List Char) : List (List Char) :=
  let pieces := splitChars (· == '.') cs
  match pieces.reverse with
  | [] :: piece :: before => (piece :: before).reverse
  | _ => pieces

/-- A name whose last piece is a number is an address. -/
def endsInNumber (cs : List Char) : Bool :=
  (hostPieces cs).getLast?.any fun piece =>
    !piece.isEmpty && (piece.all isDigit || (readHostNumber? piece).isSome)

/-- The address that numbers stand for: each is a byte, but the last covers the bytes left. -/
def addressOf? : (bytes : Nat) → List Nat → Option Nat
  | _, [] => none
  | bytes, [last] => if last < Nat.pow 256 bytes then some last else none
  | bytes, n :: ns => do
    let rest ← addressOf? (bytes - 1) ns
    if n < 256 then some (n * Nat.pow 256 (bytes - 1) + rest) else none

def readFourBytes? (cs : List Char) : Option Nat := do
  let numbers ← (hostPieces cs).mapM readHostNumber?
  if numbers.length ≤ 4 then addressOf? 4 numbers else none

/-- A byte in base ten without a leading zero. -/
def readByte? (cs : List Char) : Option Nat :=
  if cs.isEmpty || !cs.all isDigit || (1 < cs.length && cs.head? == some '0') then none
  else do
    let n ← readInBase? 10 cs
    if n < 256 then some n else none

/-- Four bytes, as the last two pieces of an address. -/
def readLastPieces? (cs : List Char) : Option (List Nat) :=
  match (splitChars (· == '.') cs).mapM readByte? with
  | some [a, b, c, d] => some [256 * a + b, 256 * c + d]
  | _ => none

def readPiece? (cs : List Char) : Option (List Nat) :=
  if cs.isEmpty || 4 < cs.length then none else (readInBase? 16 cs).map fun n => [n]

/-- Pieces with colons between them. -/
def readPieces? (last : List Char → Option (List Nat)) : List (List Char) → Option (List Nat)
  | [] => some []
  | [cs] => last cs
  | cs :: rest => do return (← readPiece? cs) ++ (← readPieces? last rest)

/-- Pieces of which the last may be four bytes. -/
def readTail? (pieces : List (List Char)) : Option (List Nat) :=
  readPieces? (fun cs => if cs.contains '.' then readLastPieces? cs else readPiece? cs) pieces

/-- The pieces before and after the first pair of colons. -/
def splitAtGap (before : List (List Char)) :
    List (List Char) → Option (List (List Char) × List (List Char))
  | [] :: cs :: rest => some (before.reverse, if cs.isEmpty && rest.isEmpty then [] else cs :: rest)
  | cs :: rest => splitAtGap (cs :: before) rest
  | [] => none

/-- The pieces with zeros between those before and those after the gap. -/
def fillGap? (before after : List (List Char)) : Option (List Nat) := do
  let before ← readPieces? readPiece? before
  let after ← readTail? after
  let known := before.length + after.length
  if known < 8 then some (before ++ List.replicate (8 - known) 0 ++ after) else none

def readEightPieces? (cs : List Char) : Option (List Nat) :=
  match cs with
  | [':', ':'] => fillGap? [] []
  | ':' :: ':' :: rest => fillGap? [] (splitChars (· == ':') rest)
  | ':' :: _ => none
  | _ =>
    match splitAtGap [] (splitChars (· == ':') cs) with
    | some (before, after) => fillGap? before after
    | none => do
      let pieces ← readTail? (splitChars (· == ':') cs)
      if pieces.length = 8 then some pieces else none

/-- The host that a text names in a URL of the web. -/
def readHost? (cs : List Char) : Option Host :=
  match cs with
  | '[' :: rest =>
    match rest.reverse with
    | ']' :: inner => (readEightPieces? inner.reverse).map .eightPieces
    | _ => none
  | _ => do
    let text ← decode? (String.ofList cs)
    let name ← domain? text.toList
    if name.isEmpty then none
    else if endsInNumber name.toList then (readFourBytes? name.toList).map .fourBytes
    else some (.domain name)

/-- The ASCII characters that no host has. -/
def isForbiddenInHost (c : Char) : Bool :=
  "\x00\t\n\r #/:<>?@[\\]^|".toList.contains c

/-- The host that a text names in any other URL. -/
def readOtherHost? (cs : List Char) : Option Host :=
  match cs with
  | '[' :: rest =>
    match rest.reverse with
    | ']' :: inner => (readEightPieces? inner.reverse).map .eightPieces
    | _ => none
  | _ =>
    if cs.any isForbiddenInHost then none
    else some (.domain (String.ofList (encodeReserved isControl cs)))

/-- The start and the length of the longest run of zeros, the first of them if there are several. -/
def longestGap (index : Nat) (best : Nat × Nat) : List Nat → Nat × Nat
  | [] => best
  | n :: ns =>
    let run := ((n :: ns).takeWhile (· == 0)).length
    longestGap (index + 1) (if best.2 < run then (index, run) else best) ns

def pieceText (n : Nat) : String :=
  String.ofList (Nat.toDigits 16 n)

def piecesText (pieces : List Nat) : String :=
  let (start, length) := longestGap 0 (0, 0) pieces
  let joined (pieces : List Nat) : String := ":".intercalate (pieces.map pieceText)
  if length < 2 then joined pieces
  else joined (pieces.take start) ++ "::" ++ joined (pieces.drop (start + length))

namespace Host

def text : Host → String
  | domain name => name
  | fourBytes n =>
    ".".intercalate ([n / 0x1000000, n / 0x10000 % 256, n / 256 % 256, n % 256].map toString)
  | eightPieces pieces => "[" ++ piecesText pieces ++ "]"

end Host

end GrantConsole.Url
