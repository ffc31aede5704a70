import ArmRover.Arm.Inverse
import ArmRover.Proofs.Arm.Directions
import ArmRover.Proofs.Arm.Reach
import ArmRover.Proofs.Arm.Search
import ArmRover.Proofs.Geometry.Points

/-!
# The tip in space

The base turns the plane of the arm about the vertical, and every joint after it turns the hand in
that plane. How far the tip is from a target is then how far it is in the plane, together with how
far the target is off the plane.

* `Transform.inPlane` — a hand in the plane of the arm, with one lemma for a joint and one for a
  link.
* `Joints.tip_real` — the tip, from its position in the plane.
* `Arm.aside` — how far a point is off the plane, `Arm.sq_miss` — the distance from a target.
* `Arm.bearing_of_offAxis`, `Arm.bearing_atBase` — where the base turns to, and
  `Arm.aimed?_of_planarFor?` — a whole pass.
-/

namespace ArmRover

/-! ### Along the arm -/

namespace Transform

/-- The transform to a hand at a position in the plane of the arm, and in a direction from the
vertical. -/
noncomputable def inPlane (base angle : ℝ) (p : Spot ℝ) : Transform ℝ where
  rowX := ⟨Real.cos base * Real.cos angle, Real.cos base * Real.sin angle, Real.sin base⟩
  rowY := ⟨-Real.sin angle, Real.cos angle, 0⟩
  rowZ := ⟨-(Real.sin base * Real.cos angle), -(Real.sin base * Real.sin angle), Real.cos base⟩
  shift := ⟨p.reach * Real.cos base, p.height, -(p.reach * Real.sin base)⟩

variable (base angle : ℝ) (p : Spot ℝ)

theorem turnY_eq_inPlane : turnY base = inPlane base 0 ⟨0, 0⟩ := by
  simp [turnY, inPlane, Scalar.sin_real, Scalar.cos_real]

/-- A joint turns the direction. -/
theorem inPlane_comp_turnZ (turn : ℝ) :
    (inPlane base angle p).comp (turnZ (-turn)) = inPlane base (angle + turn) p := by
  simp [comp, turned, rowTimes, turnZ, inPlane, Point.dot, Point.zero_add_real, Scalar.sin_real,
    Scalar.cos_real, Real.sin_add, Real.cos_add]
  refine ⟨⟨?_, ?_⟩, ⟨?_, ?_⟩, ?_, ?_⟩ <;> ring

/-- A link moves the hand ahead. -/
theorem inPlane_comp_lift (length : ℝ) :
    (inPlane base angle p).comp (lift length) =
      inPlane base angle
        ⟨p.reach + length * Real.sin angle, p.height + length * Real.cos angle⟩ := by
  simp [comp, turned, rowTimes, lift, inPlane, Point.dot, Point.mk_add_mk_real]
  refine ⟨?_, ?_, ?_⟩ <;> ring

/-- A turn of the hand about itself leaves its place. -/
theorem shift_comp_turnY (t : Transform ℝ) : (t.comp (turnY angle)).shift = t.shift := by
  simp [comp, turned, turnY, Point.dot, Point.zero_add_real]

end Transform

/-! ### The tip -/

/-- The point at a position in the plane of the arm, for a bearing of the base. -/
noncomputable def Spot.atBase (p : Spot ℝ) (base : ℝ) : Point ℝ :=
  ⟨p.reach * Real.cos (Scalar.radians base), 0.15 + p.height,
    -(p.reach * Real.sin (Scalar.radians base))⟩

namespace Joints

open Arm

/-- The joints that move the tip in the plane of the arm. -/
def planar {α : Type} (q : Joints α) : Planar α := ⟨q.shoulder, q.elbow, q.wrist⟩

/-- The base turns the plane of the arm about the vertical. -/
theorem tip_real (q : Joints ℝ) : q.tip = q.planar.tip.atBase q.base := by
  unfold tip hand Spot.atBase
  simp only [map]
  rw [Transform.shift_comp_turnY, Transform.turnY_eq_inPlane]
  simp only [Transform.inPlane_comp_turnZ, Transform.inPlane_comp_lift]
  simp [Transform.inPlane, planar, Planar.tip, pivotHeight, standHeight, upperArm, forearm,
    handSpan, palm, fingers, Scalar.sin_real, Scalar.cos_real]
  norm_num
  ring

end Joints

/-! ### Targets -/

namespace Arm

/-- How far a point is off the plane of the arm, for a given bearing of the base. -/
noncomputable def aside (p : Point ℝ) (base : ℝ) : ℝ :=
  p.x * Real.sin (Scalar.radians base) + p.z * Real.cos (Scalar.radians base)

/-- How far a point is off the axis of the base. -/
noncomputable def offAxis (p : Point ℝ) : ℝ := Scalar.hypot p.x p.z

theorem sq_offAxis (p : Point ℝ) : offAxis p ^ 2 = p.x ^ 2 + p.z ^ 2 :=
  Real.sq_sqrt (by positivity)

theorem offAxis_nonneg (p : Point ℝ) : 0 ≤ offAxis p := Real.sqrt_nonneg _

theorem spotOf_real (p : Point ℝ) (base : ℝ) :
    spotOf p base =
      ⟨p.x * Real.cos (Scalar.radians base) - p.z * Real.sin (Scalar.radians base),
        p.y - 0.15⟩ := by
  simp [spotOf, pivotHeight, standHeight, Scalar.sin_real, Scalar.cos_real]
  norm_num

/-- What is off the axis is ahead in the plane or off the plane. -/
theorem sq_reach_add_sq_aside (p : Point ℝ) (base : ℝ) :
    (spotOf p base).reach ^ 2 + aside p base ^ 2 = offAxis p ^ 2 := by
  rw [spotOf_real, sq_offAxis]
  unfold aside
  linear_combination (p.x ^ 2 + p.z ^ 2) * Real.sin_sq_add_cos_sq (Scalar.radians base)

/-- The distance of the tip from a target. -/
theorem sq_miss (q : Joints ℝ) (target : Point ℝ) :
    q.miss target ^ 2 =
      q.planar.tip.distance (spotOf target q.base) ^ 2 + aside target q.base ^ 2 := by
  obtain ⟨x, y, z⟩ := target
  unfold Joints.miss
  rw [Joints.tip_real, Spot.atBase, Point.mk_sub_mk_real, Point.sq_norm_real, spotOf_real,
    Spot.distance_eq_norm, Complex.sq_norm, Complex.normSq_apply]
  unfold aside Spot.point
  simp only [Complex.sub_re, Complex.sub_im]
  linear_combination
    (q.planar.tip.reach ^ 2 - x ^ 2 - z ^ 2) * Real.sin_sq_add_cos_sq (Scalar.radians q.base)

theorem bearing_real (p : Point ℝ) (previous : ℝ) :
    bearing p previous =
      if 1e-9 < offAxis p then Scalar.degrees (⟨p.x, -p.z⟩ : ℂ).arg else previous := by
  unfold bearing
  rw [Scalar.ofScientific_real]
  norm_num
  rfl

/-- A point in the plane of the arm is where its position in the plane says. -/
theorem atBase_spotOf {p : Point ℝ} {base : ℝ} (h : aside p base = 0) :
    (spotOf p base).atBase base = p := by
  obtain ⟨x, y, z⟩ := p
  have hturn := Real.sin_sq_add_cos_sq (Scalar.radians base)
  unfold aside at h
  rw [spotOf_real]
  simp only [Spot.atBase, Point.mk.injEq]
  dsimp only at h
  refine ⟨?_, ?_, ?_⟩
  · linear_combination x * hturn - Real.sin (Scalar.radians base) * h
  · ring
  · linear_combination z * hturn - Real.cos (Scalar.radians base) * h

/-- Close to the axis the base stays. -/
theorem bearing_of_onAxis {p : Point ℝ} (h : offAxis p ≤ 1e-9) (previous : ℝ) :
    bearing p previous = previous := by
  rw [bearing_real, if_neg (not_lt.mpr h)]

/-- A target off the axis is in the plane that the base is turned to, ahead of the arm. -/
theorem bearing_of_offAxis {p : Point ℝ} (h : 1e-9 < offAxis p) (previous : ℝ) :
    aside p (bearing p previous) = 0 ∧ (spotOf p (bearing p previous)).reach = offAxis p := by
  have hpos : 0 < offAxis p := lt_trans (by norm_num) h
  have hnorm : ‖(⟨p.x, -p.z⟩ : ℂ)‖ = offAxis p := by
    rw [Complex.norm_eq_sqrt_sq_add_sq, neg_sq]
    rfl
  have hne : (⟨p.x, -p.z⟩ : ℂ) ≠ 0 := norm_ne_zero_iff.mp (hnorm ▸ hpos.ne')
  have hcos : Real.cos (⟨p.x, -p.z⟩ : ℂ).arg = p.x / offAxis p := by
    rw [Complex.cos_arg hne, hnorm]
  have hsin : Real.sin (⟨p.x, -p.z⟩ : ℂ).arg = -p.z / offAxis p := by
    rw [Complex.sin_arg, hnorm]
  rw [bearing_real, if_pos h, spotOf_real]
  unfold aside
  rw [Scalar.radians_degrees, hcos, hsin]
  constructor
  · ring
  · have hsq := sq_offAxis p
    field_simp
    linarith

theorem offAxis_atBase (p : Spot ℝ) (base : ℝ) : offAxis (p.atBase base) = |p.reach| := by
  refine (sq_eq_sq₀ (offAxis_nonneg _) (abs_nonneg _)).mp ?_
  rw [sq_offAxis, sq_abs]
  unfold Spot.atBase
  linear_combination p.reach ^ 2 * Real.sin_sq_add_cos_sq (Scalar.radians base)

/-- A point ahead of the arm is in the plane that the base is turned to. -/
theorem bearing_atBase {p : Spot ℝ} (hp : 1e-9 < p.reach) {base : ℝ}
    (hbase : |Scalar.radians base| < Real.pi) (previous : ℝ) :
    bearing (p.atBase base) previous = base := by
  obtain ⟨hlower, hupper⟩ := abs_lt.mp hbase
  have hpos : 0 < p.reach := lt_trans (by norm_num) hp
  have harg : (⟨(p.atBase base).x, -(p.atBase base).z⟩ : ℂ) =
      p.reach * direction (Scalar.radians base) := by
    apply Complex.ext <;> simp [Spot.atBase]
  rw [bearing_real, offAxis_atBase, abs_of_pos hpos, if_pos hp, harg,
    arg_mul_direction hpos ⟨hlower, hupper.le⟩, Scalar.degrees_radians]

/-- Seen from another bearing, a point is less far ahead. -/
theorem spotOf_atBase (p : Spot ℝ) (base base' : ℝ) :
    spotOf (p.atBase base) base' =
      ⟨p.reach * Real.cos (Scalar.radians base' - Scalar.radians base), p.height⟩ := by
  rw [spotOf_real, Real.cos_sub]
  unfold Spot.atBase
  dsimp only
  congr 1 <;> ring

theorem spotOf_atBase_self (p : Spot ℝ) (base : ℝ) : spotOf (p.atBase base) base = p := by
  rw [spotOf_atBase, sub_self, Real.cos_zero, mul_one]

/-- A target within reach stays where it is. -/
theorem intoReach_of_le {target : Point ℝ} (h : target.norm ≤ fullReach) :
    intoReach target.toList = target.toList := by
  have hlength : Point.length target.toList = target.norm := by
    unfold Point.length Point.norm Point.dot Point.toList
    simp only [List.foldl_cons, List.foldl_nil, Scalar.zero_real, zero_add]
  exact intoReach_of_length_le (hlength.trans_le h)

/-- The bearing lies in the range of the base. -/
theorem within_bearing (p : Point ℝ) {previous : ℝ} (h : Joint.base.within previous = true) :
    Joint.base.within (bearing p previous) = true := by
  rw [bearing_real]
  split
  · rw [Joint.within_iff_abs_radians_le, Scalar.radians_degrees, Joint.radians_base_limit]
    exact Complex.abs_arg_le_pi _
  · exact h

/-! ### One pass -/

/-- A pass turns the base to the aim, and the plane of the arm does the rest. -/
theorem aimed?_of_planarFor? {aim : Point ℝ} {previous : Joints ℝ} {base : ℝ} {spot : Spot ℝ}
    {tolerance : Value ℝ} {found : Planar ℝ} (hbearing : bearing aim previous.base = base)
    (hspot : spotOf aim base = spot) (hbase : Joint.base.within base = true)
    (hfound : planarFor? spot tolerance = .ok found) (hwithin : found.within = true) :
    aimed? aim previous tolerance =
      .ok ⟨base, found.shoulder, found.elbow, found.wrist,
        Joint.gripper.clamp previous.gripper⟩ := by
  obtain ⟨hs, he, hw⟩ := Planar.within_iff.mp hwithin
  unfold aimed?
  dsimp only
  rw [hbearing, hspot, hfound]
  show Except.ok (Joints.clamp _) = _
  simp only [Joints.clamp, Joints.map, Joint.clamp_of_within hbase, Joint.clamp_of_within hs,
    Joint.clamp_of_within he, Joint.clamp_of_within hw]

end Arm

end ArmRover
