import ArmRover.Proofs.Arm.Links
import Mathlib.Analysis.Complex.Arg

/-!
# The ring of a straight wrist

With its wrist straight the arm brings the tip to the positions of a ring about the shoulder pivot:
no nearer to it than the outer arm folded back leaves it, and no farther than the arm is long. The
way to aim with a straight wrist is to go to the position of the ring that is nearest to the target,
which is the one in its direction.

* `Ring.abs_clamp_sub_lt` — the distance of the ring that is nearest to a distance.
* `Ring.norm_nearest_sub_le`, `Ring.eq_nearest` — the position of the ring that is nearest to a
  position.
* `Planar.tip_mem_ring` — where a straight wrist brings the tip.
* `Arm.stretched_nearest` — where it aims.
-/

namespace ArmRover

namespace Ring

variable {lower upper x d : ℝ}

/-! ### Distances -/

/-- Of the distances between two bounds the one that clamping gives is nearer than all others. -/
theorem abs_clamp_sub_lt (hlower : lower ≤ x) (hupper : x ≤ upper)
    (hne : x ≠ min (max d lower) upper) : |min (max d lower) upper - d| < |x - d| := by
  rcases le_total d lower with hlow | hlow
  · rw [max_eq_right hlow, min_eq_left (hlower.trans hupper)] at hne ⊢
    have hlt : lower < x := lt_of_le_of_ne hlower hne.symm
    rw [abs_of_nonneg (by linarith), abs_of_nonneg (by linarith)]
    linarith
  · rw [max_eq_left hlow] at hne ⊢
    rcases le_total d upper with hhigh | hhigh
    · rw [min_eq_left hhigh] at hne ⊢
      rw [sub_self, abs_zero]
      exact abs_pos.mpr (sub_ne_zero.mpr hne)
    · rw [min_eq_right hhigh] at hne ⊢
      have hlt : x < upper := lt_of_le_of_ne hupper hne
      rw [abs_of_nonpos (by linarith), abs_of_nonpos (by linarith)]
      linarith

theorem abs_clamp_sub_le (hlower : lower ≤ x) (hupper : x ≤ upper) :
    |min (max d lower) upper - d| ≤ |x - d| := by
  rcases eq_or_ne x (min (max d lower) upper) with heq | hne
  · rw [← heq]
  · exact (abs_clamp_sub_lt hlower hupper hne).le

/-! ### Positions -/

/-- The position at a distance between two bounds that is nearest to a position. -/
noncomputable def nearest (lower upper : ℝ) (w : ℂ) : ℂ :=
  (min (max ‖w‖ lower) upper : ℝ) * direction w.arg

variable {z w : ℂ}

theorem norm_nearest_sub (lower upper : ℝ) (w : ℂ) :
    ‖nearest lower upper w - w‖ = |min (max ‖w‖ lower) upper - ‖w‖| := by
  have hray : nearest lower upper w - w =
      ((min (max ‖w‖ lower) upper - ‖w‖ : ℝ) : ℂ) * direction w.arg := by
    unfold nearest
    nth_rewrite 3 [← norm_mul_direction_arg w]
    push_cast
    ring
  rw [hray, norm_mul, norm_direction, mul_one, Complex.norm_real, Real.norm_eq_abs]

theorem norm_nearest_sub_le (hlower : lower ≤ ‖z‖) (hupper : ‖z‖ ≤ upper) :
    ‖nearest lower upper w - w‖ ≤ ‖z - w‖ := by
  rw [norm_nearest_sub]
  exact (abs_clamp_sub_le hlower hupper).trans (abs_norm_sub_norm_le z w)

/-- It is on the ray to the position. -/
theorem nearest_eq_mul (lower upper : ℝ) (hw : w ≠ 0) :
    nearest lower upper w = (min (max ‖w‖ lower) upper / ‖w‖ : ℝ) * w := by
  have hne : (‖w‖ : ℂ) ≠ 0 := by exact_mod_cast norm_ne_zero_iff.mpr hw
  unfold nearest
  rw [Complex.ofReal_div, div_mul_eq_mul_div, eq_div_iff hne, mul_assoc, mul_comm (direction _),
    norm_mul_direction_arg]

/-- Off the center it is the only one as near. -/
theorem eq_nearest (hw : w ≠ 0) (hlower : lower ≤ ‖z‖) (hupper : ‖z‖ ≤ upper)
    (h : ‖z - w‖ ≤ ‖nearest lower upper w - w‖) : z = nearest lower upper w := by
  have hgap := abs_norm_sub_norm_le z w
  rw [norm_nearest_sub] at h
  have hnorm : ‖z‖ = min (max ‖w‖ lower) upper := by
    by_contra hne
    exact absurd (hgap.trans h) (not_le.mpr (abs_clamp_sub_lt hlower hupper hne))
  rw [← hnorm] at h
  unfold nearest
  rw [← hnorm]
  -- The triangle inequality is an equality, and so the two are on one ray.
  rcases Complex.norm_sub_eq_iff.mp (le_antisymm h hgap) with hz | hzero | harg
  · rw [hz, norm_zero, Complex.ofReal_zero, zero_mul]
  · exact absurd hzero hw
  · rw [← harg, norm_mul_direction_arg]

end Ring

/-! ### A straight wrist -/

namespace Planar

variable {p : Planar ℝ}

/-- The tip stays in a ring about the shoulder pivot. -/
theorem tip_mem_ring (h : p.wrist = 0) : 0.35 ≤ ‖p.tip.point‖ ∧ ‖p.tip.point‖ ≤ 1.95 := by
  have hsq := Arm.sq_norm_links 0.8 1.15 (Scalar.radians p.elbow)
  have hcos := Real.neg_one_le_cos (Scalar.radians p.elbow)
  have hcos' := Real.cos_le_one (Scalar.radians p.elbow)
  rw [tip_of_straight h, norm_mul, norm_direction, one_mul]
  constructor
  · refine le_of_sq_le_sq ?_ (norm_nonneg _)
    rw [hsq]
    linarith
  · refine le_of_sq_le_sq ?_ (by norm_num)
    rw [hsq]
    linarith

end Planar

namespace Arm

theorem tip_stretched_eq_nearest (p : Spot ℝ) :
    (stretched p).tip.point = Ring.nearest 0.35 1.95 p.point :=
  tip_stretched_eq p

/-- Before its joints are brought into their limits, the arm with a straight wrist has its tip on
the ray from the shoulder pivot to the target, as far out as the target, if the links extend to it,
else where they end. No other position that a straight wrist brings the tip to is as near to the
target. -/
theorem stretched_nearest {p : Spot ℝ} (hp : p ≠ ⟨0, 0⟩) :
    (∃ t, 0 < t ∧ (stretched p).tip = ⟨t * p.reach, t * p.height⟩) ∧
      Scalar.hypot (stretched p).tip.reach (stretched p).tip.height =
        Scalar.clamp (Scalar.hypot p.reach p.height) (forearm + handSpan - upperArm) fullReach ∧
      (stretched p).wrist = 0 ∧
      ∀ q : Planar ℝ, q.wrist = 0 →
        (stretched p).tip.distance p ≤ q.tip.distance p ∧
          (q.tip.distance p ≤ (stretched p).tip.distance p → q.tip = (stretched p).tip) := by
  have hpoint : p.point ≠ 0 := fun h => hp (Spot.point_injective h)
  have hnorm : 0 < ‖p.point‖ := norm_pos_iff.mpr hpoint
  have hradius : 0 < min (max ‖p.point‖ 0.35) 1.95 :=
    lt_min (lt_max_of_lt_left hnorm) (by norm_num)
  refine ⟨⟨min (max ‖p.point‖ 0.35) 1.95 / ‖p.point‖, by positivity, ?_⟩, ?_, wrist_stretched p,
    fun q hq => ?_⟩
  · apply Spot.point_injective
    rw [tip_stretched_eq_nearest, Ring.nearest_eq_mul _ _ hpoint]
    apply Complex.ext
    · simp [Spot.point]
    · simp [Spot.point]
  · have hshort : (forearm + handSpan - upperArm : ℝ) = 0.35 := by
      rw [forearm_real, handSpan_real, upperArm_real]
      norm_num
    rw [hshort, fullReach_real, Scalar.clamp_real, Spot.hypot_eq_norm, Spot.hypot_eq_norm]
    show ‖(stretched p).tip.point‖ = min (max ‖p.point‖ _) _
    rw [tip_stretched_eq, norm_mul, norm_direction, mul_one, Complex.norm_real,
      Real.norm_of_nonneg hradius.le]
  · obtain ⟨hlower, hupper⟩ := Planar.tip_mem_ring hq
    rw [Spot.distance_eq_norm, Spot.distance_eq_norm, tip_stretched_eq_nearest]
    refine ⟨Ring.norm_nearest_sub_le hlower hupper, fun hnear => ?_⟩
    apply Spot.point_injective
    rw [tip_stretched_eq_nearest]
    exact Ring.eq_nearest hpoint hlower hupper hnear

/-- A target below the pivot, nearer to it than the outer arm leaves the tip. -/
theorem stretched_nearest_below :
    (⟨0, -0.2⟩ : Spot ℝ) ≠ ⟨0, 0⟩ ∧
      (∃ t, 0 < t ∧ (stretched (⟨0, -0.2⟩ : Spot ℝ)).tip = ⟨t * 0, t * -0.2⟩) ∧
      Scalar.hypot (stretched (⟨0, -0.2⟩ : Spot ℝ)).tip.reach
        (stretched (⟨0, -0.2⟩ : Spot ℝ)).tip.height = 0.35 ∧
      (⟨0, 90, 0⟩ : Planar ℝ).wrist = 0 ∧
      (stretched (⟨0, -0.2⟩ : Spot ℝ)).tip.distance ⟨0, -0.2⟩ ≤
        (⟨0, 90, 0⟩ : Planar ℝ).tip.distance ⟨0, -0.2⟩ := by
  have hp : (⟨0, -0.2⟩ : Spot ℝ) ≠ ⟨0, 0⟩ := by
    rw [ne_eq, Spot.mk.injEq]
    norm_num
  obtain ⟨hray, hradius, -, hnearest⟩ := stretched_nearest hp
  have hdistance : Scalar.hypot (0 : ℝ) (-0.2) = 0.2 := by
    rw [Spot.hypot_eq_norm]
    refine (sq_eq_sq₀ (norm_nonneg _) (by norm_num)).mp ?_
    rw [Spot.sq_norm_point]
    norm_num
  refine ⟨hp, hray, ?_, rfl, (hnearest ⟨0, 90, 0⟩ rfl).1⟩
  rw [hradius, hdistance, Scalar.clamp_real, forearm_real, handSpan_real, upperArm_real,
    fullReach_real]
  norm_num

end Arm

end ArmRover
