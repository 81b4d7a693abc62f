import Mathlib.Data.Int.Log
import Mathlib.Data.Rat.Floor
import Mathlib.Tactic.Linarith
import Mathlib.Tactic.NormNum

/-! # Rounding to double precision

A rational rounds to the nearest multiple of the unit in its last place, ties to even.
Rounding keeps the integers below `2 ^ 53`, and so the bounds that they are.
-/

namespace Binary64

/-- The nearest integer, of two the even one. -/
def roundEven (q : ℚ) : ℤ :=
  if q - ⌊q⌋ < 1 / 2 then ⌊q⌋
  else if 1 / 2 < q - ⌊q⌋ then ⌊q⌋ + 1
  else if ⌊q⌋ % 2 = 0 then ⌊q⌋
  else ⌊q⌋ + 1

/-- The exponent of the last of the 53 digits of a number, or of the last there is. -/
def exponent (q : ℚ) : ℤ := max (Int.log 2 |q| - 52) (-1074)

/-- The unit in the last place. -/
def ulp (q : ℚ) : ℚ := 2 ^ exponent q

def nearest (q : ℚ) : ℚ := roundEven (q / ulp q) * ulp q

/-- From here on an integer rounds beyond the largest number there is. -/
def overflow : ℤ := 2 ^ 1024 - 2 ^ 970

/-- An integer as a number in double precision, if it is not too large for one. -/
def ofInt (n : ℤ) : Option ℚ := if |n| < overflow then some (nearest n) else none

variable {q : ℚ} {n : ℤ}

end Binary64
