/-!
# Labels of domain names

A label with other letters than those of ASCII is written with the places of these letters after its
ASCII ones. Each place is the number of steps from the one before it, in digits of base 36 whose
weights adapt to the steps so far.
-/

namespace GrantConsole.Url

/-- The digit of a number below 36. -/
def stepDigit (n : Nat) : Char :=
  if n < 26 then Char.ofNat (0x61 + n) else Char.ofNat (0x30 + n - 26)

/-- The least value of a digit that others follow. -/
def stepThreshold (k bias : Nat) : Nat :=
  min 26 (max 1 (k - bias))

theorem stepThreshold_pos (k bias : Nat) : 0 < stepThreshold k bias := by
  unfold stepThreshold
  omega

/-- The digits of a step, the first of which has place `k`. -/
def stepDigits (bias k q : Nat) : List Char :=
  let t := stepThreshold k bias
  if h : q < t then [stepDigit q]
  else
    have : (q - t) / (36 - t) < q := by
      have pos : 0 < t := stepThreshold_pos k bias
      have le : (q - t) / (36 - t) ≤ q - t := Nat.div_le_self _ _
      omega
    stepDigit (t + (q - t) % (36 - t)) :: stepDigits bias (k + 36) ((q - t) / (36 - t))
termination_by q

/-- Divides steps by 35 until they are small. -/
def biasOf (k delta : Nat) : Nat :=
  if 455 < delta then biasOf (k + 36) (delta / 35) else k + 36 * delta / (delta + 38)
termination_by delta

/-- The bias after a step, by which the weights of the next one go. -/
def nextBias (delta count : Nat) (first : Bool) : Nat :=
  let delta := if first then delta / 700 else delta / 2
  biasOf 0 (delta + delta / count)

/-- What has been written of a label. -/
structure LabelScan where
  text : List Char := []
  delta : Nat := 0
  bias : Nat := 72
  /-- How many characters of the label have their place. -/
  placed : Nat
  first : Bool := true

/-- Goes over a character when the characters with a number are placed. -/
def LabelScan.pass (n : Nat) (s : LabelScan) (c : Char) : LabelScan :=
  if c.toNat < n then { s with delta := s.delta + 1 }
  else if c.toNat = n then
    { text := s.text ++ stepDigits s.bias 36 s.delta
      delta := 0
      bias := nextBias s.delta (s.placed + 1) s.first
      placed := s.placed + 1
      first := false }
  else s

/-- Places the characters with the given numbers, which go up. -/
def LabelScan.place (label : List Char) (s : LabelScan) (n : Nat) : List Nat → LabelScan
  | [] => s
  | m :: ms =>
    let s := { s with delta := s.delta + (m - n) * (s.placed + 1) }
    let s := label.foldl (LabelScan.pass m) s
    LabelScan.place label { s with delta := s.delta + 1 } (m + 1) ms

def isAscii (c : Char) : Bool :=
  c.toNat < 0x80

/-- A label in ASCII. -/
def labelChars (label : List Char) : List Char :=
  if label.all isAscii then label
  else
    let plain := label.filter isAscii
    let others := ((label.filter fun c => !isAscii c).map Char.toNat).mergeSort.eraseDups
    let scan := LabelScan.place label { placed := plain.length } 0x80 others
    "xn--".toList ++ plain ++ (if plain.isEmpty then [] else ['-']) ++ scan.text

end GrantConsole.Url
