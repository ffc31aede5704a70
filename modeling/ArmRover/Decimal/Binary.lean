/-!
# Binary floating point, read exactly

A finite binary64 number is a sign, a mantissa and a power of two. `Binary64.decode` reads the
three off the bits, so that printing and rounding can be done in exact natural-number arithmetic.

* `Binary64.decode` — the parts of a number.
* `Binary64.ratio` — the magnitude of a finite number as a quotient of naturals.
* `Binary64.floor` — the greatest whole number that is not above it.
-/

namespace ArmRover

/-- What the bits of a binary64 number say: a finite one is
`mantissa * 2 ^ exponent`, negated if `negative`. -/
inductive Binary64 where
  | nan
  | infinity (negative : Bool)
  | finite (negative : Bool) (mantissa : Nat) (exponent : Int)
  deriving DecidableEq, Repr

namespace Binary64

-- Whole powers are the core library's, whatever algebra is imported.
attribute [local instance (high)] instPowNat

/-- Split the 64 bits into sign, 11 bits of exponent and 52 of fraction. -/
def decode (x : Float) : Binary64 :=
  let bits := x.toBits.toNat
  let negative := bits / 2 ^ (63 : Nat) == 1
  let exponent : Nat := bits / 2 ^ (52 : Nat) % 2 ^ (11 : Nat)
  let fraction := bits % 2 ^ (52 : Nat)
  if exponent = 2047 then
    if fraction = 0 then .infinity negative else .nan
  else if exponent = 0 then .finite negative fraction (-1074)
  else .finite negative (2 ^ (52 : Nat) + fraction) ((exponent : Int) - 1075)

/-- The magnitude `mantissa * 2 ^ exponent` as a numerator and a positive denominator. -/
def ratio (mantissa : Nat) (exponent : Int) : Nat × Nat :=
  (mantissa * 2 ^ exponent.toNat, 2 ^ (-exponent).toNat)

/-- The whole part of a magnitude, dropping the fraction. -/
def whole (mantissa : Nat) (exponent : Int) : Nat :=
  let (num, den) := ratio mantissa exponent
  num / den

/-- The value with its fraction dropped, toward zero; nothing for a value that is not finite. -/
def truncate : Binary64 → Option Int
  | finite negative mantissa exponent =>
    let n : Int := whole mantissa exponent
    some (if negative then -n else n)
  | _ => none

/-- The greatest whole number that is not above the value; 0 for a value that is not finite. -/
def floor : Binary64 → Int
  | finite negative mantissa exponent =>
    let (num, den) := ratio mantissa exponent
    if negative then Int.fdiv (-num) den else Int.fdiv num den
  | _ => 0

theorem ratio_den_pos (mantissa : Nat) (exponent : Int) : 0 < (ratio mantissa exponent).2 :=
  Nat.two_pow_pos _

end Binary64

end ArmRover
