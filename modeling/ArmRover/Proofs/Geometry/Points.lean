import ArmRover.Geometry.Point
import ArmRover.Proofs.Scalar.Real

/-!
# Points over the real numbers

The operations on points, coordinate by coordinate, and the length of a vector.

* `Point.mk_add_mk_real`, `Point.mk_sub_mk_real` — sums and differences.
* `Point.sq_norm_real` — the square of a length, `Point.norm_of_sq_add_sq` — a length that is known.
-/

namespace ArmRover

namespace Point

theorem mk_add_mk_real (x y z x' y' z' : ℝ) :
    (⟨x, y, z⟩ + ⟨x', y', z'⟩ : Point ℝ) = ⟨x + x', y + y', z + z'⟩ := rfl

theorem mk_sub_mk_real (x y z x' y' z' : ℝ) :
    (⟨x, y, z⟩ - ⟨x', y', z'⟩ : Point ℝ) = ⟨x - x', y - y', z - z'⟩ := rfl

theorem zero_add_real (p : Point ℝ) : ⟨0, 0, 0⟩ + p = p := by
  obtain ⟨x, y, z⟩ := p
  simp [mk_add_mk_real]

theorem sq_norm_real (x y z : ℝ) : (⟨x, y, z⟩ : Point ℝ).norm ^ 2 = x ^ 2 + y ^ 2 + z ^ 2 := by
  have hdot : (⟨x, y, z⟩ : Point ℝ).dot ⟨x, y, z⟩ = x ^ 2 + y ^ 2 + z ^ 2 := by
    simp only [dot, Scalar.add_real, Scalar.mul_real]
    ring
  unfold norm
  rw [hdot]
  exact Real.sq_sqrt (by positivity)

theorem norm_real_nonneg (p : Point ℝ) : 0 ≤ p.norm := Real.sqrt_nonneg _

/-- A vector along the ground is as long as its two coordinates say. -/
theorem norm_of_sq_add_sq {x z length : ℝ} (h : x ^ 2 + z ^ 2 = length ^ 2) :
    (⟨x, 0, z⟩ : Point ℝ).norm = |length| := by
  refine (sq_eq_sq₀ (norm_real_nonneg _) (abs_nonneg length)).mp ?_
  rw [sq_norm_real, sq_abs, ← h]
  ring

end Point

end ArmRover
