import ArmRover.Geometry.Transform
import ArmRover.Proofs.Scalar.Real
import Mathlib.LinearAlgebra.Matrix.Notation

/-!
# Homogeneous matrices

A rigid transform is a square matrix of size 4 that keeps the last row, and one transform after
another is the product of their matrices. The point that a transform brings the origin to is its
last column.

* `Homogeneous.aboutY`, `Homogeneous.aboutZ`, `Homogeneous.up` — the matrices of turns about two
  axes and of a shift along the vertical.
* `Transform.matrix` — the matrix of a transform, `Transform.matrix_turnY` and others — what it is
  for turns and shifts.
* `Transform.matrix_comp` — the matrix of a composition.
* `Transform.matrix_mulVec_origin` — the image of the origin.
-/

namespace ArmRover

open Matrix

namespace Homogeneous

/-- The turn by an angle about the `y` axis. -/
noncomputable def aboutY (θ : ℝ) : Matrix (Fin 4) (Fin 4) ℝ :=
  !![Real.cos θ, 0, Real.sin θ, 0;
     0, 1, 0, 0;
     -Real.sin θ, 0, Real.cos θ, 0;
     0, 0, 0, 1]

/-- The turn by an angle about the `z` axis. -/
noncomputable def aboutZ (θ : ℝ) : Matrix (Fin 4) (Fin 4) ℝ :=
  !![Real.cos θ, -Real.sin θ, 0, 0;
     Real.sin θ, Real.cos θ, 0, 0;
     0, 0, 1, 0;
     0, 0, 0, 1]

/-- The shift by a length along the `y` axis. -/
def up (length : ℝ) : Matrix (Fin 4) (Fin 4) ℝ :=
  !![1, 0, 0, 0;
     0, 1, 0, length;
     0, 0, 1, 0;
     0, 0, 0, 1]

/-- The origin, in homogeneous coordinates. -/
def origin : Fin 4 → ℝ := ![0, 0, 0, 1]

end Homogeneous

namespace Transform

/-- The homogeneous matrix of a transform. -/
def matrix (t : Transform ℝ) : Matrix (Fin 4) (Fin 4) ℝ :=
  !![t.rowX.x, t.rowX.y, t.rowX.z, t.shift.x;
     t.rowY.x, t.rowY.y, t.rowY.z, t.shift.y;
     t.rowZ.x, t.rowZ.y, t.rowZ.z, t.shift.z;
     0, 0, 0, 1]

@[simp] theorem matrix_turnY (θ : ℝ) : (turnY θ).matrix = Homogeneous.aboutY θ := by
  simp [matrix, turnY, Homogeneous.aboutY, Scalar.sin_real, Scalar.cos_real]

@[simp] theorem matrix_turnZ (θ : ℝ) : (turnZ θ).matrix = Homogeneous.aboutZ θ := by
  simp [matrix, turnZ, Homogeneous.aboutZ, Scalar.sin_real, Scalar.cos_real]

@[simp] theorem matrix_lift (length : ℝ) : (lift length).matrix = Homogeneous.up length := by
  simp [matrix, lift, Homogeneous.up]

/-- Composition is the product of matrices. -/
@[simp] theorem matrix_comp (s t : Transform ℝ) : (s.comp t).matrix = s.matrix * t.matrix := by
  ext i j
  fin_cases i <;> fin_cases j <;>
    simp [matrix, comp, rowTimes, turned, Point.dot, Matrix.mul_apply, Fin.sum_univ_four]
  all_goals rfl

/-- The shift is the image of the origin. -/
theorem matrix_mulVec_origin (t : Transform ℝ) :
    t.matrix *ᵥ Homogeneous.origin = ![t.shift.x, t.shift.y, t.shift.z, 1] := by
  ext i
  fin_cases i <;> simp [matrix, Homogeneous.origin, Matrix.mulVec, dotProduct, Fin.sum_univ_four]

end Transform

end ArmRover
