import GrantConsole.Json.Basic

/-!
# Quoted text

The escapes of a quoted JSON text, written and read. Writing escapes the quote, the backslash and
the characters below the space. Reading takes every escape of the format; a character beyond the
sixteen-bit range is escaped as a pair of surrogates, and a surrogate without its partner is
refused. Skipped text may hold lone surrogates.
-/

namespace GrantConsole.Json

/-- A digit of base sixteen, in lower case. -/
def hexChar (n : Nat) : Char :=
  if n < 10 then Char.ofNat ('0'.toNat + n) else Char.ofNat ('a'.toNat + (n - 10))

def hexValue? (c : Char) : Option Nat :=
  if '0' ≤ c ∧ c ≤ '9' then some (c.toNat - '0'.toNat)
  else if 'a' ≤ c ∧ c ≤ 'f' then some (c.toNat - 'a'.toNat + 10)
  else if 'A' ≤ c ∧ c ≤ 'F' then some (c.toNat - 'A'.toNat + 10)
  else none

/-- A character as it stands between quotes. -/
def quoteChar (c : Char) : List Char :=
  if c = '"' then ['\\', '"']
  else if c = '\\' then ['\\', '\\']
  else if c = '\x08' then ['\\', 'b']
  else if c = '\x0c' then ['\\', 'f']
  else if c = '\n' then ['\\', 'n']
  else if c = '\r' then ['\\', 'r']
  else if c = '\t' then ['\\', 't']
  else if c.toNat < 0x20 then ['\\', 'u', '0', '0', hexChar (c.toNat / 16), hexChar (c.toNat % 16)]
  else [c]

/-- A text between quotes. -/
def quoteChars (cs : List Char) : List Char :=
  '"' :: cs.flatMap quoteChar ++ ['"']

/-- The characters that a letter after a backslash stands for. -/
def escapeOf? (c : Char) : Option Char :=
  match c with
  | '"' => some '"'
  | '\\' => some '\\'
  | '/' => some '/'
  | 'b' => some '\x08'
  | 'f' => some '\x0c'
  | 'n' => some '\n'
  | 'r' => some '\r'
  | 't' => some '\t'
  | _ => none

/-- The bytes that the characters take, counted up to four. -/
def fewerThanFourBytes (cs : List Char) : Bool :=
  (cs.take 4).foldl (fun n c => n + c.utf8Size) 0 < 4

/-- Four digits of base sixteen. -/
def readHex (cs : List Char) : Except Fault (Nat × List Char) :=
  match cs with
  | a :: b :: c :: d :: rest =>
    match hexValue? a, hexValue? b, hexValue? c, hexValue? d with
    | some a, some b, some c, some d => .ok (a * 4096 + b * 256 + c * 16 + d, rest)
    | _, _, _, _ => .error .badEscape
  | _ => if fewerThanFourBytes cs then .error .endInText else .error .badEscape

def isHighSurrogate (n : Nat) : Bool :=
  0xD800 ≤ n && n ≤ 0xDBFF

def isLowSurrogate (n : Nat) : Bool :=
  0xDC00 ≤ n && n ≤ 0xDFFF

/-- The character of a pair of surrogates. -/
def surrogatePair (high low : Nat) : Char :=
  Char.ofNat ((high - 0xD800) * 1024 + (low - 0xDC00) + 0x10000)

/-- The second half of a pair, after the first one has been read. -/
def readLowSurrogate (high : Nat) : List Char → Except Fault (Char × List Char)
  | [] => .error .endInText
  | '\\' :: [] => .error .endInText
  | '\\' :: 'u' :: rest => do
    let (low, rest) ← readHex rest
    if isLowSurrogate low then .ok (surrogatePair high low, rest) else .error .loneSurrogate
  | _ => .error .unpairedSurrogate

/-- The rest of an escape, after its backslash. -/
def readEscape : List Char → Except Fault (Char × List Char)
  | [] => .error .endInText
  | 'u' :: rest => do
    let (n, rest) ← readHex rest
    if isLowSurrogate n then .error .loneSurrogate
    else if isHighSurrogate n then readLowSurrogate n rest
    else .ok (Char.ofNat n, rest)
  | c :: rest =>
    match escapeOf? c with
    | some c => .ok (c, rest)
    | none => .error .badEscape

/-- The text up to the closing quote; every step uses up a character, so `fuel` need not exceed
their number. -/
def readQuotedWith : (fuel : Nat) → List Char → Except Fault (List Char × List Char)
  | 0, _ => .error .endInText
  | _ + 1, [] => .error .endInText
  | _ + 1, '"' :: rest => .ok ([], rest)
  | fuel + 1, '\\' :: rest => do
    let (c, rest) ← readEscape rest
    let (cs, rest) ← readQuotedWith fuel rest
    .ok (c :: cs, rest)
  | fuel + 1, c :: rest =>
    if c.toNat < 0x20 then .error .controlCharacter
    else do
      let (cs, rest) ← readQuotedWith fuel rest
      .ok (c :: cs, rest)

/-- A quoted text, after its opening quote. -/
def readQuoted (cs : List Char) : Except Fault (String × List Char) := do
  let (body, rest) ← readQuotedWith cs.length cs
  .ok (String.ofList body, rest)

/-- Passes over the rest of an escape. -/
def skipEscape : List Char → Except Fault (List Char)
  | [] => .error .endInText
  | 'u' :: rest => do
    let (_, rest) ← readHex rest
    .ok rest
  | c :: rest => if (escapeOf? c).isSome then .ok rest else .error .badEscape

def skipQuotedWith : (fuel : Nat) → List Char → Except Fault (List Char)
  | 0, _ => .error .endInText
  | _ + 1, [] => .error .endInText
  | _ + 1, '"' :: rest => .ok rest
  | fuel + 1, '\\' :: rest => do
    let rest ← skipEscape rest
    skipQuotedWith fuel rest
  | fuel + 1, c :: rest =>
    if c.toNat < 0x20 then .error .controlCharacter else skipQuotedWith fuel rest

/-- Passes over a quoted text, after its opening quote. -/
def skipQuoted (cs : List Char) : Except Fault (List Char) :=
  skipQuotedWith cs.length cs

end GrantConsole.Json
