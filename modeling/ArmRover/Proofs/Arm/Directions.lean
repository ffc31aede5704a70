import ArmRover.Arm.Planar
import ArmRover.Proofs.Arm.Limits
import Mathlib.Analysis.SpecialFunctions.Trigonometric.Bounds

/-!
# Directions

A position in the plane of the arm is a complex number, its height the real part, and a direction
is one of length 1. A link that is turned then moves its end by the chord between two directions,
and chords add up along the arm.

* `direction` — the direction at an angle from the vertical.
* `norm_direction_sub_le`, `norm_direction_add_sub_le` and others — chords.
* `norm_direction_clamp_sub_le` — no angle of a range is nearer than the one that clamping gives.
* `Spot.point`, `Planar.tip_point` — positions, and where the tip is.
-/

namespace ArmRover

open Complex (I)

/-- The direction at an angle, in radians, from the vertical. -/
noncomputable def direction (θ : ℝ) : ℂ := Complex.exp (θ * I)

/-! ### Directions -/

@[simp] theorem direction_re (θ : ℝ) : (direction θ).re = Real.cos θ :=
  Complex.exp_ofReal_mul_I_re θ

@[simp] theorem direction_im (θ : ℝ) : (direction θ).im = Real.sin θ :=
  Complex.exp_ofReal_mul_I_im θ

@[simp] theorem norm_direction (θ : ℝ) : ‖direction θ‖ = 1 := Complex.norm_exp_ofReal_mul_I θ

@[simp] theorem direction_zero : direction 0 = 1 := by
  simp [direction]

@[simp] theorem direction_pi : direction Real.pi = -1 := Complex.exp_pi_mul_I

theorem direction_add (θ φ : ℝ) : direction (θ + φ) = direction θ * direction φ := by
  unfold direction
  rw [Complex.ofReal_add, add_mul, Complex.exp_add]

theorem norm_mul_direction_arg (z : ℂ) : ‖z‖ * direction z.arg = z :=
  Complex.norm_mul_exp_arg_mul_I z

/-- A point that is turned to a direction stays as far away. -/
theorem direction_sub_arg_mul (θ : ℝ) (z : ℂ) : direction (θ - z.arg) * z = ‖z‖ * direction θ := by
  calc
    direction (θ - z.arg) * z = direction (θ - z.arg) * (‖z‖ * direction z.arg) := by
      rw [norm_mul_direction_arg]
    _ = ‖z‖ * direction θ := by rw [mul_left_comm, ← direction_add, sub_add_cancel]

/-- The turn from one point to another that is as far away. -/
theorem direction_arg_sub_mul {z w : ℂ} (h : ‖w‖ = ‖z‖) : direction (z.arg - w.arg) * w = z := by
  rw [direction_sub_arg_mul, h, norm_mul_direction_arg]

/-- The angle of a point that is known by its distance and its direction. -/
theorem arg_mul_direction {r θ : ℝ} (hr : 0 < r) (hθ : θ ∈ Set.Ioc (-Real.pi) Real.pi) :
    (r * direction θ).arg = θ := by
  unfold direction
  rw [Complex.exp_mul_I]
  exact Complex.arg_mul_cos_add_sin_mul_I hr hθ

/-- To turn a point adds to its angle, short of half a turn. -/
theorem arg_direction_mul {z : ℂ} {θ : ℝ} (hz : z ≠ 0)
    (hθ : θ + z.arg ∈ Set.Ioc (-Real.pi) Real.pi) : (direction θ * z).arg = θ + z.arg := by
  have hturned : direction θ * z = ‖z‖ * direction (θ + z.arg) := by
    rw [direction_add, mul_left_comm, norm_mul_direction_arg]
  rw [hturned]
  exact arg_mul_direction (norm_pos_iff.mpr hz) hθ

/-- Full turns make no difference. -/
theorem direction_add_int_mul_two_pi (θ : ℝ) (n : ℤ) :
    direction (θ + n * (2 * Real.pi)) = direction θ := by
  apply Complex.ext <;> simp

theorem arg_mem_Icc_of_nonneg {z : ℂ} (hre : 0 ≤ z.re) (him : 0 ≤ z.im) :
    0 ≤ z.arg ∧ z.arg ≤ Real.pi / 2 :=
  ⟨Complex.arg_nonneg_iff.mpr him, le_of_abs_le (Complex.abs_arg_le_pi_div_two_iff.mpr hre)⟩

theorem arg_mem_Ioc_of_neg {z : ℂ} (hre : z.re < 0) (him : 0 ≤ z.im) :
    Real.pi / 2 < z.arg ∧ z.arg ≤ Real.pi := by
  refine ⟨?_, Complex.arg_le_pi z⟩
  rw [← not_le, Complex.arg_le_pi_div_two_iff]
  exact not_or.mpr ⟨not_le.mpr hre, not_lt.mpr him⟩

/-! ### Chords -/

theorem norm_direction_sub (θ φ : ℝ) :
    ‖direction θ - direction φ‖ = |2 * Real.sin ((θ - φ) / 2)| := by
  have hfactor : direction θ - direction φ = direction φ * (Complex.exp (I * ↑(θ - φ)) - 1) := by
    have hturn : Complex.exp (I * ↑(θ - φ)) = direction (θ - φ) := by rw [mul_comm]; rfl
    rw [hturn, mul_sub, ← direction_add, add_sub_cancel, mul_one]
  rw [hfactor, norm_mul, norm_direction, one_mul, Complex.norm_exp_I_mul_ofReal_sub_one,
    Real.norm_eq_abs]

theorem sq_norm_direction_sub (θ φ : ℝ) :
    ‖direction θ - direction φ‖ ^ 2 = 2 - 2 * Real.cos (θ - φ) := by
  have hhalf : Real.cos (θ - φ) = 1 - 2 * Real.sin ((θ - φ) / 2) ^ 2 := by
    rw [← Real.cos_two_mul_eq_one_sub, mul_div_cancel₀ _ (two_ne_zero' ℝ)]
  rw [norm_direction_sub, sq_abs, hhalf]
  ring

/-- A chord is no longer than its arc. -/
theorem norm_direction_sub_le (θ φ : ℝ) : ‖direction θ - direction φ‖ ≤ |θ - φ| := by
  rw [norm_direction_sub, abs_mul, abs_two]
  have hsin : |Real.sin ((θ - φ) / 2)| ≤ |(θ - φ) / 2| := Real.abs_sin_le_abs
  rw [abs_div, abs_two] at hsin
  linarith

/-- A link moves its end by the chord, as many times as it is long. -/
theorem norm_link_sub {length : ℝ} (h : 0 ≤ length) (θ φ : ℝ) :
    ‖(length : ℂ) * (direction θ - direction φ)‖ = length * ‖direction θ - direction φ‖ := by
  rw [norm_mul, Complex.norm_real, Real.norm_of_nonneg h]

/-- Chords of angles add up. -/
theorem norm_direction_add_sub_le (θ φ θ' φ' : ℝ) :
    ‖direction (θ + φ) - direction (θ' + φ')‖ ≤
      ‖direction θ - direction θ'‖ + ‖direction φ - direction φ'‖ := by
  have hsplit : direction (θ + φ) - direction (θ' + φ') =
      (direction θ - direction θ') * direction φ + direction θ' * (direction φ - direction φ') := by
    rw [direction_add, direction_add]
    ring
  rw [hsplit]
  refine (norm_add_le _ _).trans_eq ?_
  rw [norm_mul, norm_mul, norm_direction, norm_direction, mul_one, one_mul]

theorem norm_direction_neg_sub (θ φ : ℝ) :
    ‖direction (-θ) - direction (-φ)‖ = ‖direction θ - direction φ‖ := by
  rw [norm_direction_sub, norm_direction_sub, neg_sub_neg, ← neg_sub θ φ, neg_div, Real.sin_neg,
    mul_neg, abs_neg]

theorem norm_direction_sub_sub_le (θ φ θ' φ' : ℝ) :
    ‖direction (θ - φ) - direction (θ' - φ')‖ ≤
      ‖direction θ - direction θ'‖ + ‖direction φ - direction φ'‖ := by
  rw [← norm_direction_neg_sub φ φ', sub_eq_add_neg, sub_eq_add_neg]
  exact norm_direction_add_sub_le θ (-φ) θ' (-φ')

/-- The cosine of an arc is the largest cosine of the arcs up to its rest of the full turn. -/
theorem cos_le_cos_of_le_of_le {θ φ : ℝ} (hθ : 0 ≤ θ) (hφ : θ ≤ φ)
    (hrest : φ ≤ 2 * Real.pi - θ) : Real.cos φ ≤ Real.cos θ := by
  rcases le_total φ Real.pi with h | h
  · exact Real.cos_le_cos_of_nonneg_of_le_pi hθ h hφ
  · rw [← Real.cos_two_pi_sub φ]
    exact Real.cos_le_cos_of_nonneg_of_le_pi hθ (by linarith) (by linarith)

/-- The cosine of an arc is larger than the cosines of the arcs between it and its rest of the full
turn. -/
theorem cos_lt_cos_of_lt_of_lt {θ φ : ℝ} (hθ : 0 ≤ θ) (hφ : θ < φ)
    (hrest : φ < 2 * Real.pi - θ) : Real.cos φ < Real.cos θ := by
  rcases le_total φ Real.pi with h | h
  · exact Real.cos_lt_cos_of_nonneg_of_le_pi hθ h hφ
  · rw [← Real.cos_two_pi_sub φ]
    exact Real.cos_lt_cos_of_nonneg_of_le_pi hθ (by linarith) (by linarith)

theorem sqrt_three_bounds : 1.73205 ≤ √3 ∧ √3 ≤ 1.73206 :=
  ⟨Real.le_sqrt_of_sq_le (by norm_num), Real.sqrt_le_iff.mpr ⟨by norm_num, by norm_num⟩⟩

theorem sin_five_pi_div_six : Real.sin (5 * Real.pi / 6) = 1 / 2 := by
  rw [← Real.sin_pi_div_six, ← Real.sin_pi_sub]
  congr 1
  ring

theorem cos_five_pi_div_six : Real.cos (5 * Real.pi / 6) = -(√3 / 2) := by
  rw [← Real.cos_pi_div_six, ← Real.cos_pi_sub]
  congr 1
  ring

theorem arccos_neg_sqrt_three_div_two : Real.arccos (-(√3 / 2)) = 5 * Real.pi / 6 := by
  rw [← cos_five_pi_div_six]
  exact Real.arccos_cos (by positivity) (by linarith [Real.pi_pos])

/-- No angle of a range about the vertical is nearer to a direction than the one that clamping
gives. -/
theorem norm_direction_clamp_sub_le {θ φ limit : ℝ} (hφ : |φ| ≤ limit) (hθ : |θ| ≤ Real.pi) :
    ‖direction (Scalar.clamp θ (-limit) limit) - direction θ‖ ≤ ‖direction φ - direction θ‖ := by
  obtain ⟨hφ₁, hφ₂⟩ := abs_le.mp hφ
  obtain ⟨hθ₁, hθ₂⟩ := abs_le.mp hθ
  have hlimits : -limit ≤ limit := hφ₁.trans hφ₂
  refine le_of_sq_le_sq ?_ (norm_nonneg _)
  rw [sq_norm_direction_sub, sq_norm_direction_sub, Scalar.clamp_real]
  suffices h : Real.cos (φ - θ) ≤ Real.cos (min (max θ (-limit)) limit - θ) by linarith
  rcases lt_or_ge θ (-limit) with hlow | hlow
  · rw [max_eq_right hlow.le, min_eq_left hlimits]
    exact cos_le_cos_of_le_of_le (by linarith) (by linarith) (by linarith)
  · rw [max_eq_left hlow]
    rcases le_or_gt θ limit with hhigh | hhigh
    · rw [min_eq_left hhigh, sub_self, Real.cos_zero]
      exact Real.cos_le_one _
    · rw [min_eq_right hhigh.le, ← Real.cos_neg, ← Real.cos_neg (limit - θ), neg_sub, neg_sub]
      exact cos_le_cos_of_le_of_le (by linarith) (by linarith) (by linarith)

/-! ### Angles in degrees -/

namespace Scalar

theorem radians_le_radians {x y : ℝ} : radians x ≤ radians y ↔ x ≤ y := by
  rw [radians_real, radians_real]
  exact mul_le_mul_iff_left₀ (by positivity)

theorem radians_neg (x : ℝ) : radians (-x) = -radians x := by
  rw [radians_real, radians_real, neg_mul]

end Scalar

namespace Joint

open Scalar

variable {j : Joint} {x : ℝ}

@[simp] theorem radians_base_limit : radians (base.limit : ℝ) = Real.pi := by
  simp [limit, radians_real]
  ring

@[simp] theorem radians_shoulder_limit : radians (shoulder.limit : ℝ) = Real.pi / 2 := by
  simp [limit, radians_real]
  ring

@[simp] theorem radians_elbow_limit : radians (elbow.limit : ℝ) = 5 * Real.pi / 6 := by
  simp [limit, radians_real]
  ring

@[simp] theorem radians_wrist_limit : radians (wrist.limit : ℝ) = Real.pi / 2 := by
  simp [limit, radians_real]
  ring

theorem within_zero_real (j : Joint) : j.within (0 : ℝ) = true := by
  simpa using within_zero (α := ℝ) j

theorem within_iff_abs_radians_le : j.within x = true ↔ |radians x| ≤ radians j.limit := by
  rw [within_iff, abs_le, ← radians_neg, radians_le_radians, radians_le_radians]

theorem clamp_of_limit_le (h : (j.limit : ℝ) ≤ x) : j.clamp x = j.limit := by
  have hlimit : -(j.limit : ℝ) ≤ x := (neg_limit_le_limit j).trans h
  unfold clamp
  rw [clamp_real, neg_real, max_eq_left hlimit, min_eq_right h]

theorem radians_clamp :
    radians (j.clamp x) = Scalar.clamp (radians x) (-radians j.limit) (radians j.limit) := by
  have hmono : Monotone (radians : ℝ → ℝ) := fun _ _ h => radians_le_radians.mpr h
  unfold clamp
  rw [clamp_real, clamp_real, hmono.map_min, hmono.map_max, neg_real, radians_neg]

/-- Clamping moves a link no farther than to any angle in the range. -/
theorem norm_direction_clamp_sub_le {y : ℝ} (hy : j.within y = true) (hx : |radians x| ≤ Real.pi) :
    ‖direction (radians (j.clamp x)) - direction (radians x)‖ ≤
      ‖direction (radians y) - direction (radians x)‖ := by
  rw [radians_clamp]
  exact ArmRover.norm_direction_clamp_sub_le (within_iff_abs_radians_le.mp hy) hx

end Joint

namespace Arm

theorem wrap_real (x : ℝ) : wrap x = x - ⌊(x + 180) / 360⌋ * 360 := by
  have hwrap : wrap x = x + 180 - ⌊(x + 180) / 360⌋ * 360 - 180 := by
    simp [wrap, Scalar.remainder]
  rw [hwrap]
  ring

/-- To wrap an angle takes off full turns. -/
theorem direction_wrap (x : ℝ) :
    direction (Scalar.radians (wrap x)) = direction (Scalar.radians x) := by
  have hturns : Scalar.radians (wrap x) =
      Scalar.radians x + (-⌊(x + 180) / 360⌋ : ℤ) * (2 * Real.pi) := by
    rw [wrap_real, Scalar.radians_real, Scalar.radians_real]
    push_cast
    ring
  rw [hturns, direction_add_int_mul_two_pi]

theorem neg_180_le_wrap (x : ℝ) : -180 ≤ wrap x := by
  have hlower := Int.floor_le ((x + 180) / 360)
  rw [le_div_iff₀ (by norm_num)] at hlower
  rw [wrap_real]
  linarith

theorem wrap_lt_180 (x : ℝ) : wrap x < 180 := by
  have hupper := Int.lt_floor_add_one ((x + 180) / 360)
  rw [div_lt_iff₀ (by norm_num)] at hupper
  rw [wrap_real]
  linarith

theorem abs_radians_wrap_le (x : ℝ) : |Scalar.radians (wrap x)| ≤ Real.pi := by
  have hbase : Joint.base.within (wrap x) = true := by
    simp only [Joint.within_iff, Joint.limit, Scalar.le_real, Scalar.neg_real, Scalar.numeral_real]
    exact ⟨neg_180_le_wrap x, (wrap_lt_180 x).le⟩
  exact (Joint.within_iff_abs_radians_le.mp hbase).trans_eq Joint.radians_base_limit

end Arm

/-! ### Positions in the plane of the arm -/

namespace Spot

/-- The position as a complex number. -/
def point (p : Spot ℝ) : ℂ := ⟨p.height, p.reach⟩

theorem point_injective : Function.Injective point := by
  rintro ⟨r, h⟩ ⟨r', h'⟩ heq
  have hre := congrArg Complex.re heq
  have him := congrArg Complex.im heq
  simp only [point] at hre him
  rw [hre, him]

theorem hypot_eq_norm (reach height : ℝ) :
    Scalar.hypot reach height = ‖(⟨reach, height⟩ : Spot ℝ).point‖ := by
  rw [Complex.norm_eq_sqrt_sq_add_sq, add_comm]
  rfl

theorem distance_eq_norm (p q : Spot ℝ) : p.distance q = ‖p.point - q.point‖ :=
  hypot_eq_norm _ _

theorem sq_norm_point (p : Spot ℝ) : ‖p.point‖ ^ 2 = p.height ^ 2 + p.reach ^ 2 := by
  rw [Complex.sq_norm, Complex.normSq_apply]
  simp only [point]
  ring

end Spot

namespace Planar

open Arm

theorem within_iff {p : Planar ℝ} :
    p.within = true ↔ Joint.shoulder.within p.shoulder = true ∧
      Joint.elbow.within p.elbow = true ∧ Joint.wrist.within p.wrist = true := by
  simp only [within, Bool.and_eq_true, and_assoc]

theorem within_clamp (p : Planar ℝ) : p.clamp.within = true :=
  within_iff.mpr ⟨Joint.within_clamp rfl, Joint.within_clamp rfl, Joint.within_clamp rfl⟩

theorem clamp_of_within {p : Planar ℝ} (h : p.within = true) : p.clamp = p := by
  obtain ⟨hs, he, hw⟩ := within_iff.mp h
  unfold clamp
  rw [Joint.clamp_of_within hs, Joint.clamp_of_within he, Joint.clamp_of_within hw]

/-- The angles brought into `[-180, 180)` by full turns. -/
noncomputable def wrapped (p : Planar ℝ) : Planar ℝ := ⟨wrap p.shoulder, wrap p.elbow, wrap p.wrist⟩

/-- The direction of the hand, in radians. -/
noncomputable def handAngle (p : Planar ℝ) : ℝ :=
  Scalar.radians p.shoulder + Scalar.radians p.elbow + Scalar.radians p.wrist

/-- Where the wrist is. -/
noncomputable def wristPoint (p : Planar ℝ) : ℂ :=
  0.8 * direction (Scalar.radians p.shoulder) +
    0.7 * direction (Scalar.radians p.shoulder + Scalar.radians p.elbow)

/-- The tip is at the end of three links. -/
theorem tip_point (p : Planar ℝ) : p.tip.point = p.wristPoint + 0.45 * direction p.handAngle := by
  unfold wristPoint handAngle
  apply Complex.ext
  · simp [tip, Spot.point, upperArm, forearm, handSpan, palm, fingers, Scalar.cos_real]
    norm_num
  · simp [tip, Spot.point, upperArm, forearm, handSpan, palm, fingers, Scalar.sin_real]
    norm_num

/-- With the wrist straight they are two. -/
theorem tip_of_straight {p : Planar ℝ} (h : p.wrist = 0) :
    p.tip.point = direction (Scalar.radians p.shoulder) *
      ((0.8 : ℝ) + (1.15 : ℝ) * direction (Scalar.radians p.elbow)) := by
  have hhand : p.handAngle = Scalar.radians p.shoulder + Scalar.radians p.elbow := by
    unfold handAngle
    rw [h, Scalar.radians_real 0, zero_mul, add_zero]
  rw [tip_point, hhand]
  unfold wristPoint
  rw [direction_add]
  push_cast
  ring

/-- Full turns of the joints leave the tip where it is. -/
theorem tip_wrapped (p : Planar ℝ) : p.wrapped.tip = p.tip := by
  apply Spot.point_injective
  rw [tip_point, tip_point]
  simp only [wristPoint, handAngle, wrapped, direction_add, direction_wrap]

/-- How far the tip moves when the joints turn. -/
theorem norm_tip_sub_le (p q : Planar ℝ) :
    ‖p.tip.point - q.tip.point‖ ≤
      1.95 * ‖direction (Scalar.radians p.shoulder) - direction (Scalar.radians q.shoulder)‖ +
        1.15 * ‖direction (Scalar.radians p.elbow) - direction (Scalar.radians q.elbow)‖ +
        0.45 * ‖direction (Scalar.radians p.wrist) - direction (Scalar.radians q.wrist)‖ := by
  have hforearm := norm_direction_add_sub_le (Scalar.radians p.shoulder) (Scalar.radians p.elbow)
    (Scalar.radians q.shoulder) (Scalar.radians q.elbow)
  have hhand := norm_direction_add_sub_le (Scalar.radians p.shoulder + Scalar.radians p.elbow)
    (Scalar.radians p.wrist) (Scalar.radians q.shoulder + Scalar.radians q.elbow)
    (Scalar.radians q.wrist)
  have hsplit : p.tip.point - q.tip.point =
      (0.8 : ℝ) * (direction (Scalar.radians p.shoulder) - direction (Scalar.radians q.shoulder)) +
        (0.7 : ℝ) * (direction (Scalar.radians p.shoulder + Scalar.radians p.elbow) -
          direction (Scalar.radians q.shoulder + Scalar.radians q.elbow)) +
        (0.45 : ℝ) * (direction p.handAngle - direction q.handAngle) := by
    rw [tip_point, tip_point]
    unfold wristPoint
    push_cast
    ring
  rw [hsplit]
  refine norm_add₃_le.trans ?_
  rw [norm_link_sub (by norm_num), norm_link_sub (by norm_num), norm_link_sub (by norm_num)]
  unfold handAngle
  linarith

end Planar

end ArmRover
