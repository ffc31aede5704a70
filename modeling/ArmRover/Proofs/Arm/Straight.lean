import ArmRover.Proofs.Arm.Links

/-!
# The arm with a straight wrist

Far from the pivot the arm with a straight wrist is within its limits, at positions ahead of it that
it reaches in some pose, and right above it.

* `Arm.straightLinks` — upper arm and outer arm before the shoulder turns them.
* `Arm.within_stretched_of_ahead`, `Arm.within_stretched_of_above` — within the limits.
-/

namespace ArmRover.Arm

variable {p : Spot ℝ}

/-- The bend of the arm with a straight wrist. -/
noncomputable def straightBend (p : Spot ℝ) : ℝ := Real.arccos (bendCosine ‖p.point‖ 0.8 1.15)

/-- The arm with a straight wrist, before the shoulder turns it. -/
noncomputable def straightLinks (p : Spot ℝ) : ℂ :=
  (0.8 : ℝ) + (1.15 : ℝ) * direction (straightBend p)

theorem straightBend_nonneg (p : Spot ℝ) : 0 ≤ straightBend p := Real.arccos_nonneg _

theorem straightBend_le_pi (p : Spot ℝ) : straightBend p ≤ Real.pi := Real.arccos_le_pi _

theorem cos_straightBend (hnear : 0.69 ≤ ‖p.point‖ ^ 2) (hfar : ‖p.point‖ ≤ 1.95) :
    Real.cos (straightBend p) = (‖p.point‖ ^ 2 - 1.9625) / 1.84 := by
  have hcosine : bendCosine ‖p.point‖ 0.8 1.15 = (‖p.point‖ ^ 2 - 1.9625) / 1.84 := by
    rw [bendCosine_real]
    ring
  unfold straightBend
  rw [hcosine]
  apply Real.cos_arccos
  · rw [le_div_iff₀ (by norm_num)]
    linarith
  · rw [div_le_iff₀ (by norm_num)]
    nlinarith [norm_nonneg p.point]

theorem norm_straightLinks (hnear : 0.69 ≤ ‖p.point‖ ^ 2) (hfar : ‖p.point‖ ≤ 1.95) :
    ‖straightLinks p‖ = ‖p.point‖ := by
  refine norm_links (by norm_num) (by norm_num) (norm_nonneg _) ?_
  rw [cos_straightBend hnear hfar, bendCosine_real]
  ring

theorem straightLinks_re (hnear : 0.69 ≤ ‖p.point‖ ^ 2) (hfar : ‖p.point‖ ≤ 1.95) :
    0.004 ≤ (straightLinks p).re := by
  have hcos := cos_straightBend hnear hfar
  have hre : (straightLinks p).re = 0.8 + 1.15 * Real.cos (straightBend p) := by
    simp [straightLinks]
  rw [hre, hcos]
  have hle : (-0.6916 : ℝ) ≤ (‖p.point‖ ^ 2 - 1.9625) / 1.84 := by
    rw [le_div_iff₀ (by norm_num)]
    linarith
  linarith

theorem straightLinks_arg (hnear : 0.69 ≤ ‖p.point‖ ^ 2) (hfar : ‖p.point‖ ≤ 1.95) :
    0 ≤ (straightLinks p).arg ∧ (straightLinks p).arg < Real.pi / 2 := by
  have him : 0 ≤ (straightLinks p).im := by
    have hsin : 0 ≤ Real.sin (straightBend p) :=
      Real.sin_nonneg_of_nonneg_of_le_pi (straightBend_nonneg p) (straightBend_le_pi p)
    have him : (straightLinks p).im = 1.15 * Real.sin (straightBend p) := by
      simp [straightLinks]
    rw [him]
    positivity
  refine ⟨Complex.arg_nonneg_iff.mpr him, ?_⟩
  have hre := straightLinks_re hnear hfar
  exact lt_of_abs_lt (Complex.abs_arg_lt_pi_div_two_iff.mpr (.inl (by linarith)))

/-- With a straight wrist only the shoulder has to be watched. -/
theorem within_stretched (hnear : 0.69 ≤ ‖p.point‖ ^ 2) (hfar : ‖p.point‖ ≤ 1.95)
    (hshoulder : |p.point.arg - (straightLinks p).arg| ≤ Real.pi / 2) :
    (stretched p).within = true := by
  have hbend : |straightBend p| ≤ 5 * Real.pi / 6 := by
    have hlower : -0.6916 ≤ (‖p.point‖ ^ 2 - 1.9625) / 1.84 := by
      rw [le_div_iff₀ (by norm_num)]
      linarith
    obtain ⟨hsqrt, -⟩ := sqrt_three_bounds
    rw [abs_of_nonneg (straightBend_nonneg p), ← Real.arccos_cos (straightBend_nonneg p)
      (straightBend_le_pi p), cos_straightBend hnear hfar, ← arccos_neg_sqrt_three_div_two]
    exact Real.arccos_le_arccos (by linarith)
  rw [stretched_real, shoulderAngle_real, Planar.within_iff]
  refine ⟨?_, ?_, ?_⟩
  · rw [Joint.within_iff_abs_radians_le, Planar.ofRadians, Scalar.radians_degrees,
      Joint.radians_shoulder_limit]
    exact hshoulder
  · rw [Joint.within_iff_abs_radians_le, Planar.ofRadians, Scalar.radians_degrees,
      Joint.radians_elbow_limit]
    exact hbend
  · rw [Joint.within_iff_abs_radians_le, Planar.ofRadians, Scalar.radians_degrees,
      Joint.radians_wrist_limit, abs_zero]
    positivity

/-- A position ahead of the arm that the outer arm reaches from some place of the elbow. -/
theorem within_stretched_of_ahead (hnear : 0.69 ≤ ‖p.point‖ ^ 2) (hfar : ‖p.point‖ ≤ 1.95)
    (hahead : 0 ≤ p.reach) {s : ℝ} (hs : |s| ≤ Real.pi / 2)
    (hreach : ‖p.point - (0.8 : ℝ) * direction s‖ ≤ 1.15) : (stretched p).within = true := by
  obtain ⟨hoff, hoff'⟩ := straightLinks_arg hnear hfar
  obtain ⟨hs₁, hs₂⟩ := abs_le.mp hs
  have harg : 0 ≤ p.point.arg := Complex.arg_nonneg_iff.mpr hahead
  have harg' := Complex.arg_le_pi p.point
  refine within_stretched hnear hfar (abs_le.mpr ⟨by linarith, ?_⟩)
  -- The elbow is nearer to the position at `s` than it is with a straight wrist.
  have hcos : Real.cos (straightLinks p).arg ≤ Real.cos (p.point.arg - s) := by
    have hpos : 0 < ‖p.point‖ := by
      by_contra h
      nlinarith [norm_nonneg p.point]
    have houter : ‖straightLinks p - (0.8 : ℝ) * direction 0‖ = 1.15 := by
      rw [direction_zero, mul_one]
      unfold straightLinks
      rw [add_sub_cancel_left, norm_mul, norm_direction, mul_one, Complex.norm_real]
      norm_num
    have hstraight := sq_norm_sub_link (straightLinks p) 0.8 0
    have hposed := sq_norm_sub_link p.point 0.8 s
    rw [houter, norm_straightLinks hnear hfar, sub_zero] at hstraight
    have hsq := pow_le_pow_left₀ (norm_nonneg _) hreach 2
    refine le_of_mul_le_mul_left ?_ hpos
    linarith
  by_contra hlt
  have hfarther : (straightLinks p).arg < p.point.arg - s := by linarith
  have hsmaller := cos_lt_cos_of_lt_of_lt hoff hfarther (by linarith)
  linarith

/-- A position above the arm, close to the vertical. -/
theorem within_stretched_of_above (hnear : 0.69 ≤ ‖p.point‖ ^ 2) (hfar : ‖p.point‖ ≤ 1.95)
    (hclose : |p.reach| ≤ 1e-9) (habove : 0 ≤ p.height) : (stretched p).within = true := by
  obtain ⟨hoff, hoff'⟩ := straightLinks_arg hnear hfar
  have habs : |p.point.arg| ≤ Real.pi / 2 := Complex.abs_arg_le_pi_div_two_iff.mpr habove
  obtain ⟨harg, harg'⟩ := abs_le.mp habs
  refine within_stretched hnear hfar (abs_le.mpr ⟨?_, by linarith⟩)
  -- What the position is off the vertical is less than the links leave of the shoulder's range.
  have hsin : Real.sin (-p.point.arg) ≤ Real.sin (Real.pi / 2 - (straightLinks p).arg) := by
    have hre := straightLinks_re hnear hfar
    have hne : straightLinks p ≠ 0 := fun h => by
      rw [h, Complex.zero_re] at hre
      linarith
    have hreach : -p.point.im ≤ (straightLinks p).re :=
      (neg_le_abs p.reach).trans (hclose.trans (le_trans (by norm_num) hre))
    rw [Real.sin_neg, Complex.sin_arg, Real.sin_pi_div_two_sub, Complex.cos_arg hne,
      norm_straightLinks hnear hfar, ← neg_div]
    gcongr
  have hle := (Real.strictMonoOn_sin.le_iff_le ⟨by linarith, by linarith⟩
    ⟨by linarith, by linarith⟩).mp hsin
  linarith

end ArmRover.Arm
