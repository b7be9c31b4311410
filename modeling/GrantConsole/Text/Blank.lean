import GrantConsole.Text.Ranges

/-!
# Blank characters

The twenty-five characters that Unicode gives the property White_Space, and text with its
blank ends cut off.
-/

namespace GrantConsole.Text

/-- The property White_Space as ranges of code points, both ends included. -/
def blankRanges : List (Nat × Nat) :=
  [(0x9, 0xD), (0x20, 0x20), (0x85, 0x85), (0xA0, 0xA0), (0x1680, 0x1680), (0x2000, 0x200A),
   (0x2028, 0x2029), (0x202F, 0x202F), (0x205F, 0x205F), (0x3000, 0x3000)]

def isBlank (c : Char) : Bool :=
  inRanges c.toNat blankRanges

/-- The characters without the blank ones at both ends. -/
def trimChars (cs : List Char) : List Char :=
  ((cs.dropWhile isBlank).reverse.dropWhile isBlank).reverse

def trim (s : String) : String :=
  String.ofList (trimChars s.toList)

/-- Text in which nothing but blank characters occur. -/
def isBlankText (s : String) : Bool :=
  s.toList.all isBlank

end GrantConsole.Text
