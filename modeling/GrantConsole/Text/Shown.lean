import GrantConsole.Text.Joining
import GrantConsole.Text.Unprinted

/-!
# Text shown in messages

A message shows a text between quotes. The quote and the backslash are escaped, and so is every
character that leaves no mark of its own: what has no picture, what joins onto the character before
it, and the fillers of Hangul.
-/

namespace GrantConsole.Text

/-- A letter of Hangul that holds the place of a missing one: alone of the letters, it is blank. -/
def isFiller (c : Char) : Bool :=
  ['\u115F', '\u1160', '\u3164', '\uFFA0'].contains c

/-- A character that leaves no mark of its own. -/
def isUnmarked (c : Char) : Bool :=
  isJoining c || isUnprinted c || isFiller c

/-- The digits of a number in base sixteen. -/
def hexChars (n : Nat) : List Char :=
  Nat.toDigits 16 n

/-- A character as it stands between the quotes. -/
def showChar (c : Char) : List Char :=
  if c = '\x00' then ['\\', '0']
  else if c = '\t' then ['\\', 't']
  else if c = '\n' then ['\\', 'n']
  else if c = '\r' then ['\\', 'r']
  else if c = '"' then ['\\', '"']
  else if c = '\\' then ['\\', '\\']
  else if isUnmarked c then ['\\', 'u', '\x7b'] ++ hexChars c.toNat ++ ['\x7d']
  else [c]

def shown (s : String) : String :=
  String.ofList ('"' :: s.toList.flatMap showChar ++ ['"'])

end GrantConsole.Text
