import GrantConsole.Text.Unprinted
import GrantConsole.Url.Label
import GrantConsole.Url.Path

/-!
# Domain names

A domain name is kept in ASCII, label by label. Its letters are small, and its characters are of the
usual width.
-/

namespace GrantConsole.Url

open GrantConsole.Text

/-- What a domain name has for a character. Small letters stand for capital ones in the alphabets
of ASCII, Latin, Greek, Cyrillic and Armenian, and narrow characters for wide ones. -/
def domainChars (c : Char) : List Char :=
  let n := c.toNat
  let code (n : Nat) : List Char := [Char.ofNat n]
  if n < 0x80 then [c.toLower]
  else if n = 0xAD ∨ n = 0x200B ∨ n = 0x2060 ∨ n = 0xFEFF ∨ (0xFE00 ≤ n ∧ n ≤ 0xFE0F) then []
  else if n = 0x3002 ∨ n = 0xFF0E ∨ n = 0xFF61 then ['.']
  else if 0xFF01 ≤ n ∧ n ≤ 0xFF5E then [(Char.ofNat (n - 0xFEE0)).toLower]
  else if 0xC0 ≤ n ∧ n ≤ 0xDE ∧ n ≠ 0xD7 then code (n + 0x20)
  else if 0x100 ≤ n ∧ n ≤ 0x137 ∧ n ≠ 0x130 ∧ n ≠ 0x132 ∧ n % 2 = 0 then code (n + 1)
  else if 0x139 ≤ n ∧ n ≤ 0x148 ∧ n % 2 = 1 then code (n + 1)
  else if 0x14A ≤ n ∧ n ≤ 0x177 ∧ n % 2 = 0 then code (n + 1)
  else if n = 0x178 then code 0xFF
  else if 0x179 ≤ n ∧ n ≤ 0x17D ∧ n % 2 = 1 then code (n + 1)
  else if 0x391 ≤ n ∧ n ≤ 0x3AB then code (n + 0x20)
  else if 0x410 ≤ n ∧ n ≤ 0x42F then code (n + 0x20)
  else if 0x400 ≤ n ∧ n ≤ 0x40F then code (n + 0x50)
  else if 0x531 ≤ n ∧ n ≤ 0x556 then code (n + 0x30)
  else [c]

/-- The ASCII characters that no domain name has. -/
def isForbiddenInDomain (c : Char) : Bool :=
  c.toNat ≤ 0x20 || c.toNat = 0x7F || "%#/:<>?@[\\]^|".toList.contains c

/-- A domain name in ASCII, if the text is one. -/
def domain? (cs : List Char) : Option String :=
  let cs := cs.flatMap domainChars
  let refused (c : Char) : Bool := if isAscii c then isForbiddenInDomain c else isUnprinted c
  if cs.any refused then none
  else
    let labels := (splitChars (· == '.') cs).map labelChars
    some (".".intercalate (labels.map String.ofList))

end GrantConsole.Url
