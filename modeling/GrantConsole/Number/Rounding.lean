/-!
# Rounding quotients

A quotient of natural numbers rounded to the nearest natural number, where a half goes to the
even neighbour.
-/

namespace GrantConsole.Number

def roundHalfEven (num den : Nat) : Nat :=
  let floor := num / den
  let twice := 2 * (num % den)
  if twice < den then floor
  else if den < twice then floor + 1
  else if floor % 2 = 0 then floor
  else floor + 1

end GrantConsole.Number
