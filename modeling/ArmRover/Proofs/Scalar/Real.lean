import ArmRover.Clock.Basic
import ArmRover.Value.Number
import Mathlib.Analysis.SpecialFunctions.Complex.Arg
import Mathlib.Analysis.SpecialFunctions.Pow.Real
import Mathlib.Analysis.SpecialFunctions.Trigonometric.Inverse

/-!
# Real scalars

The instance on which laws about exact times and lengths are stated. No real number is infinite or
missing, so the arithmetic that can give up for that reason always has an answer.

* `Scalar.instReal` — the real numbers as scalars.
* `Scalar.ofNat_real`, `Scalar.ofScientific_real`, `Scalar.add_real` and others — literals and
  operations of the library are the real ones.
* `Scalar.clamp_real`, `Scalar.abs_real` — bounds and magnitudes are those of the order,
  `Scalar.round_real` — rounding goes to the nearest whole number.
* `Number.below_real`, `Number.above_real`, `Number.atMost_real` — comparisons do not depend on the
  kind of a number.
* `Clock.slack_real`, `Clock.dueAfter_of_pos`, `Clock.dueAfter_of_nonpos` — the clock with exact
  times.
* `Value.IsNumber` — plain data that is a number, `Value.amount` — which one,
  `Value.scalar?_of_isNumber` — it is what arithmetic takes.
-/

namespace ArmRover

noncomputable instance Scalar.instReal : Scalar ℝ where
  toAdd := inferInstance
  toSub := inferInstance
  toMul := inferInstance
  toDiv := inferInstance
  toNeg := inferInstance
  toLT := inferInstance
  toLE := inferInstance
  toBEq := inferInstance
  decidableLT := inferInstance
  decidableLE := inferInstance
  ofInt n := n
  ofDecimal m k := m / 10 ^ k
  ofRatio m n := m / n
  pi := Real.pi
  sqrt := Real.sqrt
  sin := Real.sin
  cos := Real.cos
  acos := Real.arccos
  atan2 y x := Complex.arg ⟨x, y⟩
  hypot x y := Real.sqrt (x ^ 2 + y ^ 2)
  pow := Real.rpow
  floor := Int.floor
  remainder x p := x - ⌊x / p⌋ * p
  isNaN _ := false
  isInfinite _ := false

namespace Scalar

/-! ### Literals -/

@[simp] theorem ofInt_real (n : Int) : (Scalar.ofInt n : ℝ) = n := rfl

theorem ofNat_real (n : Nat) : @OfNat.ofNat ℝ n (Scalar.instOfNat n) = (n : ℝ) := by
  show ((n : Int) : ℝ) = n
  exact Int.cast_natCast n

@[simp] theorem ofScientific_real (m e : Nat) :
    @OfScientific.ofScientific ℝ Scalar.instOfScientific m true e = (m : ℝ) / 10 ^ e := rfl

@[simp] theorem zero_real : @OfNat.ofNat ℝ 0 (Scalar.instOfNat 0) = (0 : ℝ) := by
  rw [ofNat_real, Nat.cast_zero]

@[simp] theorem one_real : @OfNat.ofNat ℝ 1 (Scalar.instOfNat 1) = (1 : ℝ) := by
  rw [ofNat_real, Nat.cast_one]

@[simp] theorem numeral_real (n : Nat) [n.AtLeastTwo] :
    @OfNat.ofNat ℝ n (Scalar.instOfNat n) = (OfNat.ofNat n : ℝ) := ofNat_real n

/-! ### Operations -/

section Operations

variable (x y : ℝ)

@[simp] theorem add_real : @HAdd.hAdd ℝ ℝ ℝ (@instHAdd ℝ Scalar.instAdd) x y = x + y := rfl

@[simp] theorem sub_real : @HSub.hSub ℝ ℝ ℝ (@instHSub ℝ Scalar.instSub) x y = x - y := rfl

@[simp] theorem mul_real : @HMul.hMul ℝ ℝ ℝ (@instHMul ℝ Scalar.instMul) x y = x * y := rfl

@[simp] theorem div_real : @HDiv.hDiv ℝ ℝ ℝ (@instHDiv ℝ Scalar.instDiv) x y = x / y := rfl

@[simp] theorem neg_real : @Neg.neg ℝ Scalar.instNeg x = -x := rfl

@[simp] theorem lt_real : @LT.lt ℝ Scalar.instLT x y ↔ x < y := Iff.rfl

@[simp] theorem le_real : @LE.le ℝ Scalar.instLE x y ↔ x ≤ y := Iff.rfl

@[simp] theorem beq_real : @BEq.beq ℝ Scalar.instBEq x y = (x == y) := rfl

theorem sin_real : Scalar.sin x = Real.sin x := rfl

theorem cos_real : Scalar.cos x = Real.cos x := rfl

end Operations

/-! ### Angles -/

theorem radians_real (x : ℝ) : Scalar.radians x = x * (Real.pi / 180) := by
  unfold Scalar.radians
  rw [numeral_real]
  rfl

theorem degrees_real (x : ℝ) : Scalar.degrees x = x * (180 / Real.pi) := by
  unfold Scalar.degrees
  rw [numeral_real]
  rfl

theorem radians_degrees (x : ℝ) : Scalar.radians (Scalar.degrees x) = x := by
  rw [radians_real, degrees_real]
  field_simp

theorem degrees_radians (x : ℝ) : Scalar.degrees (Scalar.radians x) = x := by
  rw [radians_real, degrees_real]
  field_simp

/-! ### Nothing is infinite -/

@[simp] theorem isNaN_real (x : ℝ) : Scalar.isNaN x = false := rfl

@[simp] theorem isInfinite_real (x : ℝ) : Scalar.isInfinite x = false := rfl

@[simp] theorem finite?_real (x : ℝ) : (Scalar.finite? x : Except (Fault ℝ) ℝ) = .ok x := rfl

@[simp] theorem floor?_real (x : ℝ) : Scalar.floor? x = .ok (Scalar.floor x) := rfl

@[simp] theorem sinCos?_real (x : ℝ) : Scalar.sinCos? x = .ok (Scalar.sin x, Scalar.cos x) := rfl

theorem divide?_real {x y : ℝ} (h : y ≠ 0) : Scalar.divide? x y = .ok (x / y) := by
  have hzero : (y == (Scalar.ofInt 0 : ℝ)) = false := by
    rw [ofInt_real, Int.cast_zero]
    exact beq_eq_false_iff_ne.mpr h
  show (if (y == (Scalar.ofInt 0 : ℝ)) = true then _ else _) = _
  rw [hzero]
  rfl

/-! ### Bounds -/

theorem lesser_real (x y : ℝ) : Scalar.lesser x y = min x y := by
  unfold Scalar.lesser
  split
  case isTrue h => exact (min_eq_right (le_of_lt h)).symm
  case isFalse h => exact (min_eq_left (not_lt.mp h)).symm

theorem greater_real (x y : ℝ) : Scalar.greater x y = max x y := by
  unfold Scalar.greater
  split
  case isTrue h => exact (max_eq_right (le_of_lt h)).symm
  case isFalse h => exact (max_eq_left (not_lt.mp h)).symm

theorem clamp_real (x lower upper : ℝ) : Scalar.clamp x lower upper = min (max x lower) upper := by
  unfold Scalar.clamp
  rw [lesser_real, greater_real]

theorem abs_real (x : ℝ) : Scalar.abs x = |x| := by
  unfold Scalar.abs
  rw [zero_real]
  split
  case isTrue h => exact (abs_of_neg h).symm
  case isFalse h => exact (abs_of_nonneg (not_lt.mp h)).symm

/-- A number rounds to the whole number that is nearer than a half. -/
theorem round_real {x : ℝ} {n : Int} (h : |x - n| < 1 / 2) : Scalar.round x = n := by
  obtain ⟨hlower, hupper⟩ := abs_lt.mp h
  have hhalf : @OfScientific.ofScientific ℝ Scalar.instOfScientific 5 true 1 = 1 / 2 := by
    rw [ofScientific_real]
    norm_num
  show (if x - (⌊x⌋ : ℝ) < @OfScientific.ofScientific ℝ Scalar.instOfScientific 5 true 1 then ⌊x⌋
    else if @OfScientific.ofScientific ℝ Scalar.instOfScientific 5 true 1 < x - (⌊x⌋ : ℝ) then
      ⌊x⌋ + 1
    else if ⌊x⌋ % 2 = 0 then ⌊x⌋ else ⌊x⌋ + 1) = n
  rw [hhalf]
  rcases le_or_gt (n : ℝ) x with hle | hlt
  · have hfloor : ⌊x⌋ = n := Int.floor_eq_iff.mpr ⟨hle, by linarith⟩
    rw [hfloor, if_pos (by linarith)]
  · have hfloor : ⌊x⌋ = n - 1 := by
      refine Int.floor_eq_iff.mpr ?_
      rw [Int.cast_sub, Int.cast_one]
      constructor <;> linarith
    rw [hfloor, Int.cast_sub, Int.cast_one, if_neg (by linarith), if_pos (by linarith)]
    omega

end Scalar

/-! ### Numbers -/

namespace Number

variable (n : Number ℝ)

@[simp] theorem scalar?_eq_value : n.scalar? = .ok n.value := by
  cases n <;> rfl

@[simp] theorem quotient?_eq_value (k : Nat) : n.quotient? k = .ok (n.value / k) := by
  cases n with
  | whole m => rfl
  | real x =>
    show Except.ok (x / ((k : Int) : ℝ)) = _
    rw [Int.cast_natCast]
    rfl

theorem below_real (x : ℝ) : n.below x = decide (n.value < x) := by
  cases n with
  | real y => rfl
  | whole m =>
    apply decide_eq_decide.mpr
    show m < -⌊-x⌋ ↔ (m : ℝ) < x
    rw [lt_neg, Int.floor_lt, Int.cast_neg, neg_lt_neg_iff]

theorem above_real (x : ℝ) : n.above x = decide (x < n.value) := by
  cases n with
  | real y => rfl
  | whole m => exact decide_eq_decide.mpr Int.floor_lt

theorem atMost_real (x : ℝ) : n.atMost x = decide (n.value ≤ x) := by
  cases n with
  | real y => rfl
  | whole m => exact decide_eq_decide.mpr Int.le_floor

theorem whole_below_one {m : Int} (h : 1 ≤ m) :
    (whole m : Number ℝ).below (Scalar.ofInt 1) = false := by
  rw [below_real]
  apply decide_eq_false
  show ¬ (m : ℝ) < ((1 : Int) : ℝ)
  rw [Int.cast_lt]
  omega

theorem whole_atMost_zero {m : Int} (h : 0 < m) :
    (whole m : Number ℝ).atMost (Scalar.ofInt 0) = false := by
  rw [atMost_real]
  apply decide_eq_false
  show ¬ (m : ℝ) ≤ ((0 : Int) : ℝ)
  rw [Int.cast_le]
  omega

end Number

/-! ### The clock -/

namespace Clock

theorem slack_real : (slack : ℝ) = 1e-9 := by
  unfold slack
  rw [Scalar.ofScientific_real]
  norm_num

theorem slack_nonneg : (0 : ℝ) ≤ slack := by
  rw [slack_real]
  norm_num

theorem dueAfter_of_pos (c : Clock ℝ) {s : ℝ} (h : 0 < s) :
    c.dueAfter (.sleep s) = some (.time (c.now + s)) := by
  have hnot : ¬ s ≤ Scalar.ofInt 0 := by
    rw [Scalar.ofInt_real, Int.cast_zero]
    exact not_le.mpr h
  exact if_neg hnot

theorem dueAfter_of_nonpos (c : Clock ℝ) {s : ℝ} (h : s ≤ 0) :
    c.dueAfter (.sleep s) = none := by
  have hle : s ≤ Scalar.ofInt 0 := by
    rw [Scalar.ofInt_real, Int.cast_zero]
    exact h
  exact if_pos hle

end Clock

namespace Value

/-- Plain data that is a number, where a number is asked for. -/
def IsNumber (v : Value ℝ) : Prop := ∃ n, v.number? = .ok n

/-- The real number that plain data holds, 0 if it is none. -/
noncomputable def amount (v : Value ℝ) : ℝ :=
  match v.number? with
  | .ok n => n.value
  | .error _ => 0

theorem amount_of_number {v : Value ℝ} {n : Number ℝ} (h : v.number? = .ok n) :
    v.amount = n.value := by
  unfold amount
  rw [h]

theorem amount_decimal (m e : Nat) :
    (real (@OfScientific.ofScientific ℝ Scalar.instOfScientific m true e)).amount = m / 10 ^ e :=
  Scalar.ofScientific_real m e

theorem scalar?_of_isNumber {v : Value ℝ} (h : v.IsNumber) : v.scalar? = .ok v.amount := by
  obtain ⟨n, hn⟩ := h
  rw [amount_of_number hn]
  unfold scalar?
  rw [hn]
  exact n.scalar?_eq_value

end Value

end ArmRover
