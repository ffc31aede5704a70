import ArmRover.Proofs.World.Boxes

/-!
# Rays and circles

A ray with any length over the ground can be set against a circle. The hit is the least parameter
from 0 on at which the ray is no farther from the centre than the radius, be it from outside, from
inside or at the one position where it touches the circle, and there is no hit only if there is no
such parameter. A negative radius counts as its magnitude.

* `Ray.meets_circle_iff` — the positions in a circle by their distance from the centre.
* `Shape.isLeast_circleHit?` — the hit of a ray on a circle.
-/

namespace ArmRover

/-- A ray is in a circle where it is no farther from the centre than the radius. -/
theorem Ray.meets_circle_iff (ray : Ray ℝ) (x z radius : Value ℝ) (t : ℝ) :
    ray.Meets (.circle x z radius) t ↔
      √((ray.origin.x + ray.dx * t - x.amount) ^ 2 + (ray.origin.z + ray.dz * t - z.amount) ^ 2) ≤
        |radius.amount| := by
  rw [Real.sqrt_le_left (abs_nonneg _), sq_abs]
  rfl

namespace Shape

/-- A ray has a hit on a circle if it is ever in the circle, and the hit is where it first is. -/
theorem isLeast_circleHit? {ray : Ray ℝ} (hform : ray.origin.form ≠ .text)
    (hdirection : ray.dx ≠ 0 ∨ ray.dz ≠ 0) {x z radius : Value ℝ} (hx : x.IsNumber)
    (hz : z.IsNumber) (hradius : radius.IsNumber) :
    let inside := fun t : ℝ =>
      √((ray.origin.x + ray.dx * t - x.amount) ^ 2 + (ray.origin.z + ray.dz * t - z.amount) ^ 2) ≤
        |radius.amount|
    ∃ hit, (circle x z radius).hit? ray = .ok hit ∧
      (∀ t, hit.map Hit.place = some t ↔ IsLeast {t | 0 ≤ t ∧ inside t} t) ∧
      (hit = none ↔ ∀ t, 0 ≤ t → ¬ inside t) ∧
      ∀ h ∈ hit, h.form ≠ .listed := by
  intro inside
  have hlong : 0 < ray.dx * ray.dx + ray.dz * ray.dz := by
    rcases hdirection with hdx | hdz
    · exact add_pos_of_pos_of_nonneg (mul_self_pos.mpr hdx) (mul_self_nonneg _)
    · exact add_pos_of_nonneg_of_pos (mul_self_nonneg _) (mul_self_pos.mpr hdz)
  obtain ⟨hit, hrun, hfirst⟩ := exists_circleHit? hform hlong hx hz hradius
  have hmeets : ray.Meets (circle x z radius) = inside :=
    funext fun t => propext (ray.meets_circle_iff x z radius t)
  rw [hmeets] at hfirst
  refine ⟨hit, hrun, hfirst.isLeast_iff, hfirst.eq_none_iff, ?_⟩
  rintro h rfl
  exact hfirst.1

/-- A ray of length 2 that only touches a circle, of which the radius is negative, has its hit
there. -/
theorem circleHit?_where_touching :
    ∃ hit : Option (Hit ℝ),
      (circle (.real 1) (.real 4) (.real (-1))).hit? ⟨⟨0, 0, .computed⟩, 0, 2⟩ = .ok hit ∧
      hit.map Hit.place = some 2 := by
  have hform : (⟨⟨0, 0, .computed⟩, 0, 2⟩ : Ray ℝ).origin.form ≠ .text := nofun
  have hreal : ∀ x : ℝ, (Value.real x).IsNumber := fun x => ⟨_, rfl⟩
  obtain ⟨hit, hrun, hleast, -⟩ :=
    isLeast_circleHit? hform (.inr two_ne_zero) (hreal 1) (hreal 4) (hreal (-1))
  have hinside : ∀ t : ℝ,
      √((0 + 0 * t - (Value.real 1).amount) ^ 2 + (0 + 2 * t - (Value.real 4).amount) ^ 2) ≤
        |(Value.real (-1)).amount| ↔ (2 * t - 4) ^ 2 ≤ 0 := by
    intro t
    show √((0 + 0 * t - 1) ^ 2 + (0 + 2 * t - 4) ^ 2) ≤ |(-1 : ℝ)| ↔ _
    rw [Real.sqrt_le_left (abs_nonneg _), sq_abs]
    constructor <;> intro h <;> nlinarith
  refine ⟨hit, hrun, (hleast 2).mpr ⟨⟨zero_le_two, ?_⟩, ?_⟩⟩
  · exact (hinside 2).mpr (by norm_num)
  · rintro t ⟨-, hin⟩
    have hsquare := le_antisymm ((hinside t).mp hin) (sq_nonneg _)
    have hzero := (pow_eq_zero_iff two_ne_zero).mp hsquare
    linarith

end Shape

end ArmRover
