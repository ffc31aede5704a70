import ArmRover.Proofs.Arm.Forward
import ArmRover.Proofs.Arm.Links
import ArmRover.Proofs.Geometry.Homogeneous

/-!
# Two descriptions of the tip

The tip is where the transforms of the joints and links bring the origin, and it is where the plane
of the arm has it, turned about the vertical by the base. The two agree, and so the hand may rotate
about itself, and the base may turn, without a change in what the other one is good for.

* `Joints.matrix_hand` — the hand as a product of homogeneous matrices.
* `Planar.norm_tip_le` — how far the links reach from the shoulder.
* `Joints.tip?_agrees` — where the tip is, in both descriptions, and what follows.
-/

namespace ArmRover

open Matrix

/-! ### Reach -/

/-- The links reach as far as they are long together. -/
theorem Planar.norm_tip_le (p : Planar ℝ) : ‖p.tip.point‖ ≤ 1.95 := by
  have hlink : ∀ (length θ : ℝ), 0 ≤ length → ‖(length * direction θ : ℂ)‖ = length := by
    intro length θ hlength
    rw [norm_mul, norm_direction, mul_one, Complex.norm_real, Real.norm_of_nonneg hlength]
  have hupper := hlink 0.8 (Scalar.radians p.shoulder) (by norm_num)
  have hfore := hlink 0.7 (Scalar.radians p.shoulder + Scalar.radians p.elbow) (by norm_num)
  have hhand := hlink 0.45 p.handAngle (by norm_num)
  push_cast at hupper hfore hhand
  calc
    ‖p.tip.point‖ ≤ ‖p.wristPoint‖ + ‖(0.45 * direction p.handAngle : ℂ)‖ := by
      rw [Planar.tip_point]
      exact norm_add_le _ _
    _ ≤ 0.8 + 0.7 + 0.45 := by
      refine add_le_add ((norm_add_le _ _).trans ?_) hhand.le
      rw [hupper, hfore]
    _ = 1.95 := by norm_num

theorem Arm.pivotHeight_real : (pivotHeight : ℝ) = 0.15 := by
  norm_num [pivotHeight, standHeight]

namespace Joints

open Arm

/-- Every joint turns what comes after it, and every link shifts it ahead. -/
theorem matrix_hand (q : Joints ℝ) :
    q.hand.matrix =
      Homogeneous.aboutY (Scalar.radians q.base) * Homogeneous.up pivotHeight *
        Homogeneous.aboutZ (-Scalar.radians q.shoulder) * Homogeneous.up upperArm *
        Homogeneous.aboutZ (-Scalar.radians q.elbow) * Homogeneous.up forearm *
        Homogeneous.aboutZ (-Scalar.radians q.wrist) * Homogeneous.up handSpan *
        Homogeneous.aboutY (Scalar.radians q.gripper) := by
  simp [hand, map]

/-- No real angle is without a sine. -/
theorem tip?_real (q : Joints ℝ) : q.tip? = .ok (q.planar.tip.atBase q.base) := by
  rw [← tip_real]
  simp [tip?, toList]

theorem norm_tip_sub_pivot_le (q : Joints ℝ) :
    (q.planar.tip.atBase q.base - ⟨0, pivotHeight, 0⟩).norm ≤ fullReach := by
  have hnorm : (q.planar.tip.atBase q.base - ⟨0, pivotHeight, 0⟩).norm ^ 2 =
      ‖q.planar.tip.point‖ ^ 2 := by
    rw [Spot.atBase, Point.mk_sub_mk_real, Point.sq_norm_real, Spot.sq_norm_point,
      pivotHeight_real]
    linear_combination
      q.planar.tip.reach ^ 2 * Real.sin_sq_add_cos_sq (Scalar.radians q.base)
  rw [(sq_eq_sq₀ (Point.norm_real_nonneg _) (norm_nonneg _)).mp hnorm, fullReach_real]
  exact Planar.norm_tip_le _

/-- Where the transforms of joints and links bring the origin, the plane of the arm has the tip,
turned about the vertical by the base. So the tip does not depend on the rotation of the gripper,
the base keeps its height and its distance from the vertical axis, and it is never farther from the
shoulder pivot than the arm is long. -/
theorem tip?_agrees (q : Joints ℝ) :
    ∃ tip : Point ℝ, q.tip? = .ok tip ∧
      (Homogeneous.aboutY (Scalar.radians q.base) * Homogeneous.up pivotHeight *
        Homogeneous.aboutZ (-Scalar.radians q.shoulder) * Homogeneous.up upperArm *
        Homogeneous.aboutZ (-Scalar.radians q.elbow) * Homogeneous.up forearm *
        Homogeneous.aboutZ (-Scalar.radians q.wrist) * Homogeneous.up handSpan *
        Homogeneous.aboutY (Scalar.radians q.gripper)) *ᵥ Homogeneous.origin =
          ![tip.x, tip.y, tip.z, 1] ∧
      tip = ⟨q.planar.tip.reach * Real.cos (Scalar.radians q.base),
        pivotHeight + q.planar.tip.height,
        -(q.planar.tip.reach * Real.sin (Scalar.radians q.base))⟩ ∧
      (∀ turn, { q with gripper := turn }.tip? = .ok tip) ∧
      (∀ turn, ∃ turned, { q with base := turn }.tip? = .ok turned ∧ turned.y = tip.y ∧
        offAxis turned = offAxis tip) ∧
      (tip - ⟨0, pivotHeight, 0⟩).norm ≤ fullReach := by
  refine ⟨q.planar.tip.atBase q.base, tip?_real q, ?_, ?_, fun turn => tip?_real _, fun turn => ?_,
    norm_tip_sub_pivot_le q⟩
  · rw [← matrix_hand, Transform.matrix_mulVec_origin, ← tip_real]
    rfl
  · rw [pivotHeight_real]
    rfl
  · refine ⟨_, tip?_real _, rfl, ?_⟩
    rw [offAxis_atBase, offAxis_atBase]
    rfl

end Joints

end ArmRover
