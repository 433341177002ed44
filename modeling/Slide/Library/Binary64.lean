import Mathlib.Algebra.Group.Nat.Defs
import Mathlib.Data.Rat.Defs

/-!
# Doubles

JavaScript numbers are Lean's `Float`, whose operations are defined on bit patterns.  This module
adds the conversions a program on numbers and big integers uses.
-/

namespace Binary64

/-- `Number(n)` of a big integer: the nearest double, ties to even. -/
def ofInt (n : Int) : Float := .ofModel (.ofInt n)

/-- `2 ** k`: the power of two, or the nearest double where it is out of range. -/
def pow2 (k : Int) : Float := .ofModel (.pack (.round .binary64 .positive 1 k))

/-- The bits of a double as sign, biased exponent and stored mantissa. -/
def fields (x : Float) : Nat × Nat × Nat :=
  let bits := x.toBits.toNat
  (bits / 2 ^ 63, bits / 2 ^ 52 % 2 ^ 11, bits % 2 ^ 52)

end Binary64
