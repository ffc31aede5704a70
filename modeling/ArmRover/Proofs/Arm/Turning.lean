import ArmRover.Arm.Trajectory
import ArmRover.Proofs.Scalar.Real

/-!
# The turning of a joint

Half of the way a joint speeds up and half of the way it slows down, but it never goes back. It is
brought into its range all the time, also when its target lies beyond, and so it goes straight to
the target brought into the range.

* `Trajectory.ease_le_ease` — progress does not go back, `Trajectory.ease_one` — and is complete in
  the end.
* `Joint.turned` — the angle of a joint after a share of the time, `Joint.turned_one` — after all of
  it.
* `Joint.turned_mem_uIcc` — later angles lie between earlier ones and the end.
-/

namespace ArmRover

/-! ### Progress -/

namespace Trajectory

theorem ease_real (t : ℝ) : ease t = if t < 1 / 2 then 2 * t ^ 2 else 1 - 2 * (1 - t) ^ 2 := by
  have hhalf : (@OfScientific.ofScientific ℝ Scalar.instOfScientific 5 true 1 : ℝ) = 1 / 2 := by
    rw [Scalar.ofScientific_real]
    norm_num
  have hsquare : ∀ x : ℝ, Scalar.square x = x ^ 2 := fun x => by
    show Real.rpow x (@OfNat.ofNat ℝ 2 (Scalar.instOfNat 2)) = _
    rw [Scalar.ofNat_real]
    exact Real.rpow_natCast x 2
  unfold ease
  rw [hhalf, hsquare]
  split
  · show 2 * t * t = 2 * t ^ 2
    ring
  · rw [Scalar.one_real]

theorem ease_zero : ease (0 : ℝ) = 0 := by
  rw [ease_real]
  norm_num

theorem ease_one : ease (1 : ℝ) = 1 := by
  rw [ease_real]
  norm_num

/-- Progress does not go back. -/
theorem ease_le_ease {p q : ℝ} (hp : 0 ≤ p) (hpq : p ≤ q) (hq : q ≤ 1) : ease p ≤ ease q := by
  rw [ease_real, ease_real]
  split
  · split
    · nlinarith
    · -- one on either side of the middle, where both parabolas are at one half
      next hlow hhigh =>
      have hfirst : 2 * p ^ 2 ≤ 1 / 2 := by nlinarith
      have hsecond : 2 * (1 - q) ^ 2 ≤ 1 / 2 := by nlinarith
      linarith
  · next hhigh =>
    rw [if_neg fun hlow => hhigh (hpq.trans_lt hlow)]
    nlinarith

end Trajectory

/-! ### Angles -/

namespace Joint

/-- The angle of a joint after a share of the time in which it turns. -/
def turned [Scalar α] (j : Joint) (start target share : α) : α :=
  j.clamp (start + (target - start) * Trajectory.ease share)

variable {j : Joint} {start target p q : ℝ}

theorem monotone_clamp (j : Joint) : Monotone (j.clamp : ℝ → ℝ) := by
  intro x y hxy
  unfold clamp
  rw [Scalar.clamp_real, Scalar.clamp_real]
  exact min_le_min_right _ (max_le_max_right _ hxy)

theorem turned_zero (j : Joint) (start target : ℝ) : j.turned start target 0 = j.clamp start := by
  unfold turned
  rw [Trajectory.ease_zero, mul_zero, add_zero]

/-- In the end the joint is at its target, brought into the range. -/
theorem turned_one (j : Joint) (start target : ℝ) : j.turned start target 1 = j.clamp target := by
  unfold turned
  rw [Trajectory.ease_one, mul_one, add_sub_cancel]

/-- Later angles lie between the earlier ones and the target brought into the range. -/
theorem turned_mem_uIcc (hp : 0 ≤ p) (hpq : p ≤ q) (hq : q ≤ 1) :
    j.turned start target q ∈ Set.uIcc (j.turned start target p) (j.clamp target) := by
  have hease : Trajectory.ease p ≤ Trajectory.ease q := Trajectory.ease_le_ease hp hpq hq
  have hone : Trajectory.ease q ≤ 1 :=
    (Trajectory.ease_le_ease (hp.trans hpq) hq le_rfl).trans Trajectory.ease_one.le
  rcases le_total start target with hup | hdown
  · refine Set.mem_uIcc_of_le (j.monotone_clamp ?_) (j.monotone_clamp ?_)
    · nlinarith
    · nlinarith
  · refine Set.mem_uIcc_of_ge (j.monotone_clamp ?_) (j.monotone_clamp ?_)
    · nlinarith
    · nlinarith

end Joint

end ArmRover
