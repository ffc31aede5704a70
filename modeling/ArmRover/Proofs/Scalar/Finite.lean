import ArmRover.Proofs.Scalar.Real

/-!
# Finite numbers

Arithmetic that can give up has an answer where its arguments are finite. Over the real numbers all
are.
-/

namespace ArmRover.Scalar

variable {α : Type} [Scalar α]

/-- A number that is neither missing nor infinite. -/
structure IsFinite (x : α) : Prop where
  not_nan : isNaN x = false
  not_infinite : isInfinite x = false

theorem IsFinite.floor? {x : α} (h : IsFinite x) : Scalar.floor? x = .ok (floor x) := by
  unfold Scalar.floor?
  rw [h.not_nan, h.not_infinite]
  rfl

theorem sinCos?_of_not_infinite {x : α} (h : isInfinite x = false) :
    sinCos? x = .ok (sin x, cos x) := by
  unfold sinCos?
  rw [h]
  rfl

theorem isFinite_real (x : ℝ) : IsFinite x := ⟨rfl, rfl⟩

end ArmRover.Scalar
