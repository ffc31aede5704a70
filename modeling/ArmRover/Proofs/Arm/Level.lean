import ArmRover.Proofs.Arm.Agreement
import ArmRover.Proofs.Arm.Folded

/-!
# A level hand

A pass holds the hand level where it can. Where it finds angles for that, the tip comes to the aim
itself, wherever the aim is about the base. It finds them wherever a pose within the limits has
angles that add up to a right angle. Joints that are turned back, with angles that add up to a right
angle less a full turn, hold the hand level just as well, and these are the poses it does not find.

* `Planar.Level` — poses with a level hand, `Planar.Level.sum_of_within` — what their angles add up
  to.
* `Arm.aimed?_of_level?` — the tip comes to the aim.
* `Arm.handAt_tip` — a pose is what the links give for its tip and its hand.
* `Arm.level?_eq_none_iff` — where no level hand is found, `Arm.level?_turned_back` — a pose that is
  not found.
-/

namespace ArmRover

/-! ### Poses -/

namespace Planar

/-- The hand is level and points ahead. A full turn of the joints makes no difference. -/
def Level (p : Planar ℝ) : Prop := ∃ n : ℤ, p.shoulder + p.elbow + p.wrist = 90 + n * 360

variable {p : Planar ℝ}

theorem handAngle_eq_half_pi_iff :
    p.handAngle = Real.pi / 2 ↔ p.shoulder + p.elbow + p.wrist = 90 := by
  have hsum : p.handAngle = (p.shoulder + p.elbow + p.wrist) * (Real.pi / 180) := by
    simp only [handAngle, Scalar.radians_real]
    ring
  have hright : Real.pi / 2 = 90 * (Real.pi / 180) := by ring
  rw [hsum, hright]
  exact mul_left_inj' (by positivity)

/-- Within the limits the angles of a level hand add up to a right angle, or to a full turn less. -/
theorem Level.sum_of_within (h : p.Level) (hwithin : p.within = true) :
    p.shoulder + p.elbow + p.wrist = 90 ∨ p.shoulder + p.elbow + p.wrist = -270 := by
  obtain ⟨n, hn⟩ := h
  obtain ⟨hs, he, hw⟩ := within_iff.mp hwithin
  simp only [Joint.within_iff, Joint.limit, Scalar.le_real, Scalar.neg_real,
    Scalar.numeral_real] at hs he hw
  -- The limits leave no more than 330 degrees to either side.
  have hlower : (-2 : ℝ) < n := by linarith
  have hupper : (n : ℝ) < 1 := by linarith
  norm_cast at hlower hupper
  obtain rfl | rfl : n = 0 ∨ n = -1 := by omega
  · left
    rw [hn]
    norm_num
  · right
    rw [hn]
    norm_num

end Planar

namespace Arm

theorem handAngle_of_level? {p : Spot ℝ} {found : Planar ℝ} (h : level? p = some found) :
    found.handAngle = Real.pi / 2 := by
  obtain ⟨bend, -, rfl, -⟩ := exists_bend_of_level? h
  exact handAngle_handAt p bend _

/-! ### Where a level hand is found -/

variable {q : Planar ℝ}

/-- The elbow has the bend for the distance of the wrist. -/
theorem handCosine_tip (q : Planar ℝ) :
    handCosine q.tip q.handAngle = Real.cos (Scalar.radians q.elbow) := by
  rw [handCosine_eq, wristOf_tip, sq_norm_wristPoint]
  ring

/-- An elbow in its range has the bend of its cosine, to one side or the other. -/
theorem arccos_cos_of_elbow_within {x : ℝ} (h : Joint.elbow.within x = true) :
    Real.arccos (Real.cos (Scalar.radians x)) = |Scalar.radians x| := by
  rw [Joint.within_iff_abs_radians_le, Joint.radians_elbow_limit] at h
  rw [← Real.cos_abs]
  exact Real.arccos_cos (abs_nonneg _) (by linarith [Real.pi_pos])

/-- Seen from the shoulder, the wrist is less than half a turn off the vertical, and so the shoulder
that the links give is the shoulder itself. -/
theorem shoulderAngle_tip (h : Joint.shoulder.within q.shoulder = true) :
    shoulderAngle (wristOf q.tip q.handAngle) (Scalar.radians q.elbow) 0.8 0.7 =
      Scalar.radians q.shoulder := by
  have hre : 0 < ((0.8 : ℝ) + (0.7 : ℝ) * direction (Scalar.radians q.elbow) : ℂ).re := by
    have hahead : ((0.8 : ℝ) + (0.7 : ℝ) * direction (Scalar.radians q.elbow) : ℂ).re =
        0.8 + 0.7 * Real.cos (Scalar.radians q.elbow) := by simp
    rw [hahead]
    linarith [Real.neg_one_le_cos (Scalar.radians q.elbow)]
  have hne : ((0.8 : ℝ) + (0.7 : ℝ) * direction (Scalar.radians q.elbow) : ℂ) ≠ 0 := by
    intro hzero
    rw [hzero, Complex.zero_re] at hre
    exact lt_irrefl 0 hre
  rw [Joint.within_iff_abs_radians_le, Joint.radians_shoulder_limit] at h
  obtain ⟨hs, hs'⟩ := abs_le.mp h
  obtain ⟨hl, hl'⟩ := abs_lt.mp (Complex.abs_arg_lt_pi_div_two_iff.mpr (.inl hre))
  rw [shoulderAngle_real, wristOf_tip, wristPoint_eq_mul, arg_direction_mul hne,
    add_sub_cancel_right]
  constructor <;> linarith

/-- A pose is the one that the links give for its tip and its hand. -/
theorem handAt_tip (h : Joint.shoulder.within q.shoulder = true) :
    handAt q.tip (Scalar.radians q.elbow) q.handAngle = q := by
  have hwrist : q.handAngle - Scalar.radians q.shoulder - Scalar.radians q.elbow =
      Scalar.radians q.wrist := by
    unfold Planar.handAngle
    ring
  unfold handAt
  simp only [shoulderAngle_tip h, hwrist, Planar.ofRadians, Scalar.degrees_radians]

section Found

variable (hwithin : q.within = true) (hlevel : q.handAngle = Real.pi / 2)

include hwithin hlevel

theorem level?_tip :
    level? q.tip =
      if (handAt q.tip |Scalar.radians q.elbow| (Real.pi / 2)).within then
        some (handAt q.tip |Scalar.radians q.elbow| (Real.pi / 2))
      else if (handAt q.tip (-|Scalar.radians q.elbow|) (Real.pi / 2)).within then
        some (handAt q.tip (-|Scalar.radians q.elbow|) (Real.pi / 2))
      else none := by
  have hcosine : handCosine q.tip (Real.pi / 2) = Real.cos (Scalar.radians q.elbow) :=
    hlevel ▸ handCosine_tip q
  rw [level?_real, hcosine, arccos_cos_of_elbow_within (Planar.within_iff.mp hwithin).2.1,
    if_neg (not_lt.mpr (Real.abs_cos_le_one _))]

theorem handAt_tip_of_level : handAt q.tip (Scalar.radians q.elbow) (Real.pi / 2) = q :=
  hlevel ▸ handAt_tip (Planar.within_iff.mp hwithin).1

/-- A pose with the elbow up, and angles that add up to a right angle, is found. -/
theorem level?_tip_of_elbow_up (hup : 0 ≤ Scalar.radians q.elbow) : level? q.tip = some q := by
  rw [level?_tip hwithin hlevel, abs_of_nonneg hup, handAt_tip_of_level hwithin hlevel,
    if_pos hwithin]

/-- A pose with angles that add up to a right angle has the elbow up or down, and either is
tried. -/
theorem level?_ne_none : level? q.tip ≠ none := by
  rcases le_total 0 (Scalar.radians q.elbow) with hup | hdown
  · rw [level?_tip_of_elbow_up hwithin hlevel hup]
    exact Option.some_ne_none q
  · rw [level?_tip hwithin hlevel, abs_of_nonpos hdown, neg_neg,
      handAt_tip_of_level hwithin hlevel, if_pos hwithin]
    split
    · exact Option.some_ne_none _
    · exact Option.some_ne_none q

end Found

/-- No level hand is found exactly where every pose within the limits that has the tip there, with
the hand level, is turned back: its angles add up to a right angle less a full turn. -/
theorem level?_eq_none_iff (p : Spot ℝ) :
    level? p = none ↔ ∀ q : Planar ℝ, q.within = true → q.tip = p → q.Level →
      q.shoulder + q.elbow + q.wrist = -270 := by
  constructor
  · intro hnone q hwithin htip hlevel
    rcases hlevel.sum_of_within hwithin with hright | hback
    · rw [← htip] at hnone
      exact absurd hnone (level?_ne_none hwithin (Planar.handAngle_eq_half_pi_iff.mpr hright))
    · exact hback
  · intro hback
    cases hfound : level? p with
    | none => rfl
    | some found =>
      obtain ⟨htip, hwithin⟩ := tip_level? hfound
      have hright := Planar.handAngle_eq_half_pi_iff.mp (handAngle_of_level? hfound)
      have hsum := hback found hwithin (Spot.point_injective htip)
        ⟨0, by rw [hright, Int.cast_zero, zero_mul, add_zero]⟩
      rw [hright] at hsum
      norm_num at hsum

/-- With the upper arm turned back by 60 degrees, the elbow by 150 and the wrist by 60, the hand is
level, but the tip is at a position where no level hand is found. -/
theorem level?_turned_back :
    (⟨-60, -150, -60⟩ : Planar ℝ).within = true ∧
      (⟨-60, -150, -60⟩ : Planar ℝ).tip = ⟨0.8 - 0.4 * √3, 0.4 - 0.35 * √3⟩ ∧
      (⟨-60, -150, -60⟩ : Planar ℝ).Level ∧
      level? (⟨0.8 - 0.4 * √3, 0.4 - 0.35 * √3⟩ : Spot ℝ) = none := by
  obtain ⟨hsqrt, -⟩ := sqrt_three_bounds
  refine ⟨?_, ?_, ⟨-1, by norm_num⟩, level?_eq_none ?_ ?_⟩
  · rw [Planar.within_iff]
    norm_num [Joint.within_iff, Joint.limit]
  · have hshoulder : Scalar.radians (-60 : ℝ) = -(Real.pi / 3) := by
      rw [Scalar.radians_real]
      ring
    have hforearm : Scalar.radians (-60 : ℝ) + Scalar.radians (-150 : ℝ) =
        5 * Real.pi / 6 + (-1 : ℤ) * (2 * Real.pi) := by
      rw [Scalar.radians_real, Scalar.radians_real]
      push_cast
      ring
    have hhand : Scalar.radians (-60 : ℝ) + Scalar.radians (-150 : ℝ) + Scalar.radians (-60 : ℝ) =
        Real.pi / 2 + (-1 : ℤ) * (2 * Real.pi) := by
      rw [Scalar.radians_real, Scalar.radians_real]
      push_cast
      ring
    apply Spot.point_injective
    rw [Planar.tip_point]
    unfold Planar.wristPoint Planar.handAngle
    dsimp only
    rw [hhand, hforearm, hshoulder, direction_add_int_mul_two_pi, direction_add_int_mul_two_pi]
    apply Complex.ext
    · simp [Spot.point, cos_five_pi_div_six]
      ring
    · simp [Spot.point, sin_five_pi_div_six]
      ring
  · dsimp only
    linarith
  · dsimp only
    linarith

/-! ### The aim -/

/-- The upper arm upright, and forearm and hand level. -/
theorem tip_square : (⟨0, 90, 0⟩ : Planar ℝ).tip = ⟨1.15, 0.8⟩ := by
  have hright : Scalar.radians (90 : ℝ) = Real.pi / 2 := by
    rw [Scalar.radians_real]
    ring
  apply Spot.point_injective
  rw [Planar.tip_point]
  unfold Planar.wristPoint Planar.handAngle
  dsimp only
  rw [hright, Scalar.radians_real 0, zero_mul, zero_add, add_zero]
  apply Complex.ext
  · simp [Spot.point]
  · simp [Spot.point]
    norm_num

theorem level?_square : level? (⟨0, 90, 0⟩ : Planar ℝ).tip = some ⟨0, 90, 0⟩ := by
  apply level?_tip_of_elbow_up
  · rw [Planar.within_iff]
    norm_num [Joint.within_iff, Joint.limit]
  · rw [Planar.handAngle_eq_half_pi_iff]
    norm_num
  · rw [Scalar.radians_real]
    positivity

/-- The tolerance does not matter where a level hand is found. -/
theorem planarFor?_of_level? {spot : Spot ℝ} {found : Planar ℝ} (h : level? spot = some found)
    (tolerance : Value ℝ) : planarFor? spot tolerance = .ok found := by
  unfold planarFor?
  rw [h]
  rfl

/-- Where a level hand is found, a pass brings the tip to the aim itself, with the hand level and
the gripper as it was. All joints are within their limits before they are brought into them. -/
theorem aimed?_of_level? {aim : Point ℝ} {previous : Joints ℝ} {found : Planar ℝ}
    (tolerance : Value ℝ) (haxis : 1e-9 < Scalar.hypot aim.x aim.z)
    (hprevious : previous.within = true)
    (hfound : level? (spotOf aim (bearing aim previous.base)) = some found) :
    ∃ q : Joints ℝ, aimed? aim previous tolerance = .ok q ∧
      q = ⟨bearing aim previous.base, found.shoulder, found.elbow, found.wrist,
        previous.gripper⟩ ∧
      q.tip? = .ok aim ∧ q.shoulder + q.elbow + q.wrist = 90 ∧ q.within = true ∧
      q.gripper = previous.gripper := by
  have hbase := within_bearing aim (Joints.within_iff.mp hprevious .base)
  have hgripper : Joint.gripper.within previous.gripper = true :=
    Joints.within_iff.mp hprevious .gripper
  obtain ⟨htip, hwithin⟩ := tip_level? hfound
  obtain ⟨hs, he, hw⟩ := Planar.within_iff.mp hwithin
  obtain ⟨haside, -⟩ := bearing_of_offAxis haxis previous.base
  have haimed := aimed?_of_planarFor? rfl rfl hbase (planarFor?_of_level? hfound tolerance) hwithin
  rw [Joint.clamp_of_within hgripper] at haimed
  refine ⟨_, haimed, rfl, ?_, ?_, ?_, rfl⟩
  · rw [Joints.tip?_real]
    show Except.ok (found.tip.atBase (bearing aim previous.base)) = _
    rw [Spot.point_injective htip, atBase_spotOf haside]
  · exact Planar.handAngle_eq_half_pi_iff.mp (handAngle_of_level? hfound)
  · refine Joints.within_iff.mpr fun j => ?_
    cases j with
    | base => exact hbase
    | shoulder => exact hs
    | elbow => exact he
    | wrist => exact hw
    | gripper => exact hgripper

/-- An aim behind the arm and to its side. -/
theorem aimed?_of_level?_behind :
    (1e-9 : ℝ) < Scalar.hypot (-0.69) 0.92 ∧ (⟨0, 0, 0, 0, 35⟩ : Joints ℝ).within = true ∧
      level? (spotOf ⟨-0.69, 0.95, 0.92⟩ (bearing ⟨-0.69, 0.95, 0.92⟩ 0)) =
        some (⟨0, 90, 0⟩ : Planar ℝ) ∧
      ∃ q : Joints ℝ, aimed? ⟨-0.69, 0.95, 0.92⟩ ⟨0, 0, 0, 0, 35⟩ (.real 0.01) = .ok q ∧
        q.tip? = .ok ⟨-0.69, 0.95, 0.92⟩ ∧ q.shoulder + q.elbow + q.wrist = 90 ∧
        q.within = true ∧ q.gripper = 35 := by
  have hoff : offAxis ⟨-0.69, 0.95, 0.92⟩ = 1.15 := by
    refine (sq_eq_sq₀ (offAxis_nonneg _) (by norm_num)).mp ?_
    rw [sq_offAxis]
    norm_num
  have haxis : 1e-9 < Scalar.hypot (-0.69 : ℝ) 0.92 := lt_of_lt_of_eq (by norm_num) hoff.symm
  have hprevious : (⟨0, 0, 0, 0, 35⟩ : Joints ℝ).within = true := by
    rw [Joints.within_iff]
    intro j
    cases j <;> norm_num [Joints.get, Joint.within_iff, Joint.limit]
  have hspot : spotOf ⟨-0.69, 0.95, 0.92⟩ (bearing ⟨-0.69, 0.95, 0.92⟩ 0) =
      (⟨0, 90, 0⟩ : Planar ℝ).tip := by
    rw [tip_square]
    have hreach := (bearing_of_offAxis (p := ⟨-0.69, 0.95, 0.92⟩) haxis 0).2
    rw [hoff] at hreach
    rw [spotOf_real] at hreach ⊢
    rw [Spot.mk.injEq]
    exact ⟨hreach, by norm_num⟩
  have hfound : level? (spotOf ⟨-0.69, 0.95, 0.92⟩ (bearing ⟨-0.69, 0.95, 0.92⟩ 0)) =
      some (⟨0, 90, 0⟩ : Planar ℝ) := by
    rw [hspot]
    exact level?_square
  obtain ⟨q, hq, -, htip, hlevel, hwithin, hgripper⟩ :=
    aimed?_of_level? (.real 0.01) haxis hprevious hfound
  exact ⟨haxis, hprevious, hfound, q, hq, htip, hlevel, hwithin, hgripper⟩

end Arm

end ArmRover
