import ArmRover.Proofs.World.Hit

/-!
# Rays and boxes

A ray need not have length 1 to be set against a box. It is enough that a coordinate along which it
moves at all moves fast enough not to count as parallel to the sides. Then the hit on a box is the
least parameter from 0 on at which the ray is in the box, be it from outside, from inside, along a
side or through a corner, and there is no hit only if there is no such parameter.

* `Shape.Stretch.eq_zero_of_parallel` — coordinates that count as not moving,
  `Hit.First.isLeast_iff`, `Hit.First.eq_none_iff` — the first of some parameters is their least.
* `Shape.isLeast_boxHit?` — the hit of a ray on a box.
-/

namespace ArmRover

/-- A coordinate that does not move, or moves fast enough, counts as not moving only if it does
not. -/
theorem Shape.Stretch.eq_zero_of_parallel {direction : ℝ}
    (hfast : direction = 0 ∨ 1e-12 ≤ |direction|) (h : parallel direction = true) :
    direction = 0 := by
  refine hfast.resolve_right fun hle => ?_
  have hlt := of_decide_eq_true h
  rw [Scalar.abs_real, Scalar.ofScientific_real] at hlt
  norm_num at hle hlt
  exact absurd hle (not_le.mpr hlt)

namespace Hit.First

variable {inside : ℝ → Prop} {hit : Option (Hit ℝ)}

theorem isLeast_iff (hfirst : First inside hit) (t : ℝ) :
    hit.map place = some t ↔ IsLeast {t | 0 ≤ t ∧ inside t} t := by
  cases hit with
  | none => exact ⟨nofun, fun hleast => absurd hleast.1.2 (hfirst t hleast.1.1)⟩
  | some h =>
    obtain ⟨-, hnonneg, hin, hbefore⟩ := hfirst
    have hleast : IsLeast {t | 0 ≤ t ∧ inside t} h.place :=
      ⟨⟨hnonneg, hin⟩, fun s hs => le_of_not_gt fun hlt => hbefore s hs.1 hlt hs.2⟩
    refine Option.some_inj.trans ⟨fun heq => heq ▸ hleast, hleast.unique⟩

theorem eq_none_iff (hfirst : First inside hit) : hit = none ↔ ∀ t, 0 ≤ t → ¬ inside t := by
  cases hit with
  | none => exact iff_of_true rfl hfirst
  | some h =>
    obtain ⟨-, hnonneg, hin, -⟩ := hfirst
    exact iff_of_false nofun fun hnever => hnever h.place hnonneg hin

end Hit.First

namespace Shape

/-- A ray has a hit on a box if it is ever in the box, and the hit is where it first is. -/
theorem isLeast_boxHit? {ray : Ray ℝ} (hform : ray.origin.form ≠ .text)
    (hdx : ray.dx = 0 ∨ 1e-12 ≤ |ray.dx|) (hdz : ray.dz = 0 ∨ 1e-12 ≤ |ray.dz|)
    {xMin xMax zMin zMax : Value ℝ} (hx : Bounds xMin xMax) (hz : Bounds zMin zMax) :
    ∃ hit, (box xMin xMax zMin zMax).hit? ray = .ok hit ∧
      (∀ t, hit.map Hit.place = some t ↔
        IsLeast {t | 0 ≤ t ∧ ray.Meets (box xMin xMax zMin zMax) t} t) ∧
      (hit = none ↔ ∀ t, 0 ≤ t → ¬ ray.Meets (box xMin xMax zMin zMax) t) ∧
      ∀ h ∈ hit, h.form ≠ .listed := by
  obtain ⟨hit, hrun, hfirst⟩ := exists_boxHit? hform (Stretch.eq_zero_of_parallel hdx)
    (Stretch.eq_zero_of_parallel hdz) hx hz
  refine ⟨hit, hrun, hfirst.isLeast_iff, hfirst.eq_none_iff, ?_⟩
  rintro h rfl
  exact hfirst.1

/-- Real numbers in order bound a coordinate. -/
theorem bounds_real {lower upper : ℝ} (h : lower ≤ upper) : Bounds (.real lower) (.real upper) where
  lower_isNumber := ⟨_, rfl⟩
  upper_isNumber := ⟨_, rfl⟩
  le := h

theorem meets_box_real (ray : Ray ℝ) (xMin xMax zMin zMax t : ℝ) :
    ray.Meets (box (.real xMin) (.real xMax) (.real zMin) (.real zMax)) t ↔
      (xMin ≤ ray.origin.x + ray.dx * t ∧ ray.origin.x + ray.dx * t ≤ xMax) ∧
        zMin ≤ ray.origin.z + ray.dz * t ∧ ray.origin.z + ray.dz * t ≤ zMax := Iff.rfl

/-- A ray that is in a box at a corner only has its hit there. -/
theorem boxHit?_at_corner :
    ∃ hit : Option (Hit ℝ),
      (box (.real 1) (.real 2) (.real (-1)) (.real 1)).hit? ⟨⟨0, 0, .computed⟩, 1, 1⟩ = .ok hit ∧
      hit.map Hit.place = some 1 := by
  have hform : (⟨⟨0, 0, .computed⟩, 1, 1⟩ : Ray ℝ).origin.form ≠ .text := nofun
  obtain ⟨hit, hrun, hleast, -⟩ :=
    isLeast_boxHit? hform (.inr (by norm_num)) (.inr (by norm_num))
      (bounds_real (by norm_num : (1 : ℝ) ≤ 2)) (bounds_real (by norm_num : (-1 : ℝ) ≤ 1))
  refine ⟨hit, hrun, (hleast 1).mpr ⟨⟨zero_le_one, ?_⟩, ?_⟩⟩
  · rw [meets_box_real]
    norm_num
  · rintro t ⟨-, hin⟩
    rw [meets_box_real] at hin
    linarith [hin.1.1]

end Shape

end ArmRover
