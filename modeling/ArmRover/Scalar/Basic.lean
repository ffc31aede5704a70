/-!
# Scalars

The numbers the simulation computes with. Everything that moves, senses or maps is written
once, over a type `α` with `[Scalar α]`: the programs run on binary floating point, and a law
about the geometry can be stated on the same definitions over the real numbers.

* `Scalar` — the operations and comparisons, and the functions of trigonometry.
* `Scalar.lesser`, `Scalar.greater`, `Scalar.clamp` — bounds. The first argument wins whenever
  the comparison does not decide, so a value that is not a number passes through a clamp.
* `Scalar.radians`, `Scalar.degrees` — the two units of angle.
-/

namespace ArmRover

-- Whole powers are the core library's, whatever algebra is imported.
attribute [local instance (high)] instPowNat

/-- A type of numbers with the operations of an ordered field, square roots, trigonometry and a
floor. `ofDecimal m k` is `m / 10 ^ k`, and `ofRatio m n` is `m / n` for a positive `n`, rounded at
most once. The two predicates are false on every value of an exact type; `floor` is only meant for
values on which both are false. `remainder x p` is the remainder of `x` by a positive `p`, in
`[0, p)`. -/
class Scalar (α : Type) where
  toAdd : Add α
  toSub : Sub α
  toMul : Mul α
  toDiv : Div α
  toNeg : Neg α
  toLT : LT α
  toLE : LE α
  toBEq : BEq α
  decidableLT (x y : α) : Decidable (x < y)
  decidableLE (x y : α) : Decidable (x ≤ y)
  ofInt : Int → α
  ofDecimal : Nat → Nat → α
  ofRatio : Int → Nat → α
  pi : α
  sqrt : α → α
  sin : α → α
  cos : α → α
  acos : α → α
  atan2 : α → α → α
  hypot : α → α → α
  pow : α → α → α
  floor : α → Int
  remainder : α → α → α
  isNaN : α → Bool
  isInfinite : α → Bool

namespace Scalar

/-! ### Operators and literals -/

instance (priority := low) [Scalar α] : Add α := toAdd
instance (priority := low) [Scalar α] : Sub α := toSub
instance (priority := low) [Scalar α] : Mul α := toMul
instance (priority := low) [Scalar α] : Div α := toDiv
instance (priority := low) [Scalar α] : Neg α := toNeg
instance (priority := low) [Scalar α] : LT α := toLT
instance (priority := low) [Scalar α] : LE α := toLE
instance (priority := low) [Scalar α] : BEq α := toBEq
instance (priority := low) [Scalar α] (x y : α) : Decidable (x < y) := decidableLT x y
instance (priority := low) [Scalar α] (x y : α) : Decidable (x ≤ y) := decidableLE x y
-- Numerals of a semiring come first.
instance (priority := 50) [Scalar α] (n : Nat) : OfNat α n := ⟨ofInt n⟩

instance (priority := low) [Scalar α] : OfScientific α where
  ofScientific m negative e := if negative then ofDecimal m e else ofInt (m * 10 ^ e)

section
variable [Scalar α]

/-! ### Bounds -/

/-- The smaller of two numbers, the first unless the second is less. -/
@[inline] def lesser (x y : α) : α := if y < x then y else x

/-- The larger of two numbers, the first unless the second is greater. -/
@[inline] def greater (x y : α) : α := if x < y then y else x

/-- `x` brought up to `lower`, then down to `upper`. -/
@[inline] def clamp (x lower upper : α) : α := lesser (greater x lower) upper

/-- The magnitude of a number. -/
@[inline] def abs (x : α) : α := if x < 0 then -x else x

/-- Whether the number is less than positive infinity. -/
@[inline] def belowInfinity (x : α) : Bool :=
  !isNaN x && !(isInfinite x && decide (0 < x))

/-! ### Angles -/

/-- Degrees to radians. -/
@[inline] def radians (x : α) : α := x * (pi / 180)

/-- Radians to degrees. -/
@[inline] def degrees (x : α) : α := x * (180 / pi)

/-! ### Whole numbers -/

/-- The least whole number that is not below `x`. -/
@[inline] def ceil (x : α) : Int := -floor (-x)

/-- The nearest whole number; a half goes to the even neighbour. -/
def round (x : α) : Int :=
  let below := floor x
  let excess := x - ofInt below
  if excess < 0.5 then below
  else if 0.5 < excess then below + 1
  else if below % 2 = 0 then below
  else below + 1

/-- The square of a number, as its power with exponent 2. -/
@[inline] def square (x : α) : α := pow x 2

end

end Scalar

end ArmRover
