import ArmRover.Map.Grid
import ArmRover.Proofs.Scalar.Real

/-!
# The squares of a map

Over the real numbers the cells of a map divide the ground into squares, each with its lower but
not its upper sides.

* `Grid.InSquare` — the square of a cell, `Grid.locate_eq_iff` — a position lies in the square of
  its cell.
-/

namespace ArmRover.Grid

variable {g : Grid ℝ}

theorem index_real (g : Grid ℝ) (x : ℝ) : g.index x = g.size / 2 + x / g.cellSide := by
  show ((g.size : Int) : ℝ) / @OfNat.ofNat ℝ 2 (Scalar.instOfNat 2) + x / g.cellSide = _
  rw [Scalar.numeral_real, Int.cast_natCast]

theorem cellSide_real (g : Grid ℝ) : g.cellSide = g.side.value / g.size := by
  unfold cellSide
  cases g.side with
  | whole m => rfl
  | real x =>
    show x / ((g.size : Int) : ℝ) = x / (g.size : ℝ)
    rw [Int.cast_natCast]

/-- The half-open square of the ground that a cell stands for. -/
def InSquare (g : Grid ℝ) (gx gz : Int) (x z : ℝ) : Prop :=
  (gx - g.size / 2) * g.cellSide ≤ x ∧ x < (gx + 1 - g.size / 2) * g.cellSide ∧
    (gz - g.size / 2) * g.cellSide ≤ z ∧ z < (gz + 1 - g.size / 2) * g.cellSide

theorem floor_index_eq_iff (hside : 0 < g.cellSide) (n : Int) (x : ℝ) :
    ⌊g.index x⌋ = n ↔
      (n - g.size / 2) * g.cellSide ≤ x ∧ x < (n + 1 - g.size / 2) * g.cellSide := by
  rw [index_real, Int.floor_eq_iff, ← le_div_iff₀ hside, ← div_lt_iff₀ hside]
  constructor
  · rintro ⟨hlower, hupper⟩
    constructor <;> linarith
  · rintro ⟨hlower, hupper⟩
    constructor <;> linarith

/-- A position lies in the square of the cell that holds it, and in no other one. -/
theorem locate_eq_iff (hside : 0 < g.cellSide) (gx gz : Int) (x z : ℝ) :
    g.locate x z = (gx, gz) ↔ g.InSquare gx gz x z := by
  show (⌊g.index x⌋, ⌊g.index z⌋) = (gx, gz) ↔ _
  rw [Prod.mk.injEq, floor_index_eq_iff hside, floor_index_eq_iff hside, and_assoc]
  rfl

end ArmRover.Grid
