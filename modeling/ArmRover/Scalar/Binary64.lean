import ArmRover.Scalar.Basic
import ArmRover.Decimal.Binary

/-!
# Floating-point scalars

The instance the programs run on. Three operations are not brought by the machine:

* `Scalar.Hypot.length` — the length of a two-dimensional vector, computed on scaled sides and then
  corrected by one step of the square root's own error.
* `Scalar.remainderOfFloat` — the remainder by a period, rounded once at most.
* `Scalar.ratioOfFloat` — the quotient of two whole numbers of any size, rounded once.
-/

namespace ArmRover

-- Whole powers are the core library's, whatever algebra is imported.
attribute [local instance (high)] instPowNat

namespace Scalar.Hypot

/-- A number as the sum of two with at most 27 significant bits each, so that products of the
parts are exact. -/
@[inline] def split (x : Float) : Float × Float :=
  let t := x * 134217729
  let high := t - (t - x)
  (high, x - high)

/-- What rounding lost in the square of `x`. -/
@[inline] def squareError (x : Float) : Float :=
  let (high, low) := split x
  (high * high - x * x) + 2 * high * low + low * low

/-- The length for sides of moderate size: the square root of the sum of squares, improved by
half the remaining error over the root. -/
@[inline] def moderate (x y : Float) : Float :=
  let xx := x * x
  let yy := y * y
  let sum := xx + yy
  let lost := (if xx < yy then (yy - sum) + xx else (xx - sum) + yy)
    + (squareError x + squareError y)
  let root := (sum + lost).sqrt
  let remaining := ((sum - root * root) - squareError root) + lost
  root + remaining / (2 * root)

/-- Below this length squares lose digits. -/
def short : Float := 1e-140

/-- Above this length squares may be too large. -/
def long : Float := 1e140

/-- The length of the vector with sides `x` and `y`. An infinite side makes it infinite, even
beside one that is not a number. -/
def length (x y : Float) : Float :=
  let x := x.abs
  let y := y.abs
  if x.isInf || y.isInf then 1 / 0
  else if x.isNaN || y.isNaN then 0 / 0
  else
    let largest := if x < y then y else x
    if largest == 0 then 0
    else if largest < short then moderate (x.scaleB 600) (y.scaleB 600) |>.scaleB (-600)
    else if long < largest then
      moderate (x.scaleB (-600)) (y.scaleB (-600)) |>.scaleB 600
    else moderate x y

end Scalar.Hypot

/-- The greatest whole number that is not above `x`. Numbers of moderate size are rounded by the
machine; the others are whole. -/
def Scalar.floorOfFloat (x : Float) : Int :=
  if x.abs < 4503599627370496 then x.floor.toInt64.toInt else (Binary64.decode x).floor

/-- The number `n * 2 ^ e`, for an `n` of at most 53 binary digits. -/
def Scalar.scaledFloat (n : Nat) (e : Int) : Float :=
  (Float.ofNat n).scaleB e

/-- The remainder of two finite magnitudes `m * 2 ^ e`, without rounding: on the finer of the two
grids both are whole. -/
def Scalar.magnitudeRemainder (m : Nat) (e : Int) (m' : Nat) (e' : Int) : Float :=
  let fine := min e e'
  scaledFloat (m * 2 ^ (e - fine).toNat % (m' * 2 ^ (e' - fine).toNat)) fine

/-- The remainder of `x` by a positive period. The remainder of the magnitude is exact; that of a
negative number is its complement. No number that is infinite has a remainder. -/
def Scalar.exactRemainder (x period : Float) : Float :=
  match Binary64.decode x, Binary64.decode period with
  | .finite negative m e, .finite _ m' e' =>
    let rest := magnitudeRemainder m e m' e'
    if rest == 0 then 0 else if negative then period - rest else rest
  | _, _ => 0 / 0

/-- The remainder of `x` by a positive period. While the number of periods is small, its product
with the period is taken off without rounding. -/
def Scalar.remainderOfFloat (x period : Float) : Float :=
  if x.abs < 4294967296 * period then
    let turns := floorOfFloat (x / period)
    let rest := x - Float.ofInt turns * period
    if rest < 0 then x - Float.ofInt (turns - 1) * period else rest
  else exactRemainder x period

/-- The number nearest to `m / 10 ^ k`. -/
def Scalar.decimalOfFloat (m k : Nat) : Float := Float.ofScientific m true k

/-- The quotient of two natural numbers, the second one positive: at least 66 binary digits of it,
the last one set if something is left, rounded to the nearest number and scaled back. -/
def Scalar.exactRatio (size n : Nat) : Float :=
  let shift : Int := 66 + n.log2 - size.log2
  let dividend := size * 2 ^ shift.toNat
  let divisor := n * 2 ^ (-shift).toNat
  let quotient := dividend / divisor ||| (if dividend % divisor = 0 then 0 else 1)
  (Float.ofNat quotient).scaleB (-shift)

/-- The quotient of two whole numbers, the second one positive. Those that are floating-point
numbers themselves are divided by the machine. -/
def Scalar.ratioOfFloat (m : Int) (n : Nat) : Float :=
  if m.natAbs ≤ 9007199254740992 ∧ n ≤ 9007199254740992 then Float.ofInt m / Float.ofNat n
  else if m < 0 then -exactRatio m.natAbs n
  else exactRatio m.natAbs n

instance : Scalar Float where
  toAdd := inferInstance
  toSub := inferInstance
  toMul := inferInstance
  toDiv := inferInstance
  toNeg := inferInstance
  toLT := inferInstance
  toLE := inferInstance
  toBEq := inferInstance
  decidableLT := inferInstance
  decidableLE := inferInstance
  ofInt := Float.ofInt
  ofDecimal := Scalar.decimalOfFloat
  ofRatio := Scalar.ratioOfFloat
  pi := 3.141592653589793
  sqrt := Float.sqrt
  sin := Float.sin
  cos := Float.cos
  acos := Float.acos
  atan2 := Float.atan2
  hypot := Scalar.Hypot.length
  pow := Float.pow
  floor := Scalar.floorOfFloat
  remainder := Scalar.remainderOfFloat
  isNaN := Float.isNaN
  isInfinite := Float.isInf

end ArmRover
