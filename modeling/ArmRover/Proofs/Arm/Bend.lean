import ArmRover.Proofs.Arm.Links

/-!
# The triangle of two links

Two links and the distance that they span are the sides of a triangle, and the bend of the elbow is
what the angle between the links lacks to a straight line. For a distance that the links can span
the cosine of the bend is known, and among the angles from straight to folded so is the bend.

* `elbowBend?_of_pos`, `elbowBend_mem_Icc` — there is a bend, `antitoneOn_elbowBend` — it is less
  for a greater distance.
* `norm_links_elbowBend` — the bend closes the triangle, `eq_of_sq_links_eq` — no other does.
* `linksEnd`, `distance_linksEnd` — how far the links end from the pivot, whatever the first one
  points at.
* `elbowBend_closes` — all of it together.
-/

namespace ArmRover

open Arm

/-! ### The bend -/

namespace Arm

variable {l1 l2 distance : ℝ}

/-- Links that are not points have a bend. -/
theorem elbowBend?_of_pos (hl1 : 0 < l1) (hl2 : 0 < l2) (distance : ℝ) :
    elbowBend? distance l1 l2 = .ok (elbowBend distance l1 l2) := by
  have hproduct : (2 * l1 * l2 == 0) = false := beq_false_of_ne (by positivity)
  unfold elbowBend?
  simp only [Scalar.numeral_real, Scalar.mul_real, Scalar.zero_real, Scalar.beq_real]
  rw [hproduct]
  rfl

theorem elbowBend_mem_Icc (distance l1 l2 : ℝ) :
    elbowBend distance l1 l2 ∈ Set.Icc 0 Real.pi := by
  rw [elbowBend_real]
  exact ⟨Real.arccos_nonneg _, Real.arccos_le_pi _⟩

/-- Links that span more are bent less. -/
theorem antitoneOn_elbowBend (hl1 : 0 < l1) (hl2 : 0 < l2) :
    AntitoneOn (fun distance => elbowBend distance l1 l2) (Set.Ici 0) := by
  intro near hnear far _ hle
  have hcosine : bendCosine near l1 l2 ≤ bendCosine far l1 l2 := by
    rw [bendCosine_real, bendCosine_real]
    have hsq : near ^ 2 ≤ far ^ 2 := pow_le_pow_left₀ hnear hle 2
    gcongr
  simp only [elbowBend_real]
  exact Real.antitone_arccos hcosine

/-- The bend closes the triangle of a distance that the links can span. -/
theorem norm_links_elbowBend (hl1 : 0 < l1) (hl2 : 0 < l2) (hnear : |l1 - l2| ≤ distance)
    (hfar : distance ≤ l1 + l2) :
    ‖(l1 + l2 * direction (elbowBend distance l1 l2) : ℂ)‖ = distance := by
  rw [elbowBend_real, norm_links_arccos hl1 hl2 ((abs_nonneg _).trans hnear), max_eq_left hnear,
    min_eq_left hfar]

/-- From straight to folded, no two bends close the same triangle. -/
theorem eq_of_sq_links_eq (hl1 : 0 < l1) (hl2 : 0 < l2) {bend bend' : ℝ}
    (hbend : bend ∈ Set.Icc 0 Real.pi) (hbend' : bend' ∈ Set.Icc 0 Real.pi)
    (h : l1 ^ 2 + l2 ^ 2 + 2 * l1 * l2 * Real.cos bend =
      l1 ^ 2 + l2 ^ 2 + 2 * l1 * l2 * Real.cos bend') : bend = bend' := by
  have hproduct : 2 * l1 * l2 ≠ 0 := by positivity
  exact Real.injOn_cos hbend hbend' (mul_left_cancel₀ hproduct (add_left_cancel h))

end Arm

/-! ### The links in the plane -/

/-- Where two links from the shoulder pivot end: the first in a direction from the vertical, in
radians, and the second bent from it. -/
noncomputable def linksEnd (l1 l2 first bend : ℝ) : Spot ℝ :=
  ⟨l1 * Real.sin first + l2 * Real.sin (first + bend),
    l1 * Real.cos first + l2 * Real.cos (first + bend)⟩

theorem linksEnd_point (l1 l2 first bend : ℝ) :
    (linksEnd l1 l2 first bend).point = direction first * (l1 + l2 * direction bend) := by
  have hturned : direction first * (l1 + l2 * direction bend) =
      l1 * direction first + l2 * direction (first + bend) := by
    rw [direction_add]
    ring
  rw [hturned]
  apply Complex.ext <;> simp [linksEnd, Spot.point]

/-- The wrist is where upper arm and forearm end. -/
theorem Planar.wristPoint_eq_linksEnd (p : Planar ℝ) :
    p.wristPoint = (linksEnd upperArm forearm (Scalar.radians p.shoulder)
      (Scalar.radians p.elbow)).point := by
  rw [linksEnd_point, wristPoint_eq_mul, upperArm_real, forearm_real]

/-- To turn the links about the pivot leaves what they span. -/
theorem distance_linksEnd (l1 l2 first bend : ℝ) :
    (linksEnd l1 l2 first bend).distance ⟨0, 0⟩ = ‖(l1 + l2 * direction bend : ℂ)‖ := by
  have hpivot : (⟨0, 0⟩ : Spot ℝ).point = 0 := rfl
  rw [Spot.distance_eq_norm, hpivot, sub_zero, linksEnd_point, norm_mul, norm_direction, one_mul]

/-- The bend of two links lies between straight and folded, and it never grows with the distance.
For a distance that the links can span it is the only one there that closes the triangle, and the
links with that bend end at the distance, whatever direction they are turned to. -/
theorem elbowBend_closes {l1 l2 : ℝ} (hl1 : 0 < l1) (hl2 : 0 < l2) :
    (∀ distance : ℝ, elbowBend? distance l1 l2 = .ok (elbowBend distance l1 l2) ∧
      elbowBend distance l1 l2 ∈ Set.Icc 0 Real.pi) ∧
    AntitoneOn (fun distance => elbowBend distance l1 l2) (Set.Ici 0) ∧
    ∀ distance : ℝ, |l1 - l2| ≤ distance → distance ≤ l1 + l2 →
      (∀ bend ∈ Set.Icc 0 Real.pi,
        l1 ^ 2 + l2 ^ 2 + 2 * l1 * l2 * Real.cos bend = distance ^ 2 ↔
          bend = elbowBend distance l1 l2) ∧
      ∀ first : ℝ,
        (linksEnd l1 l2 first (elbowBend distance l1 l2)).distance ⟨0, 0⟩ = distance := by
  refine ⟨fun distance => ⟨elbowBend?_of_pos hl1 hl2 distance, elbowBend_mem_Icc distance l1 l2⟩,
    antitoneOn_elbowBend hl1 hl2, fun distance hnear hfar => ?_⟩
  have hspan := norm_links_elbowBend hl1 hl2 hnear hfar
  have hclosed : l1 ^ 2 + l2 ^ 2 + 2 * l1 * l2 * Real.cos (elbowBend distance l1 l2) =
      distance ^ 2 := by
    rw [← sq_norm_links, hspan]
  constructor
  · intro bend hbend
    constructor
    · intro h
      exact eq_of_sq_links_eq hl1 hl2 hbend (elbowBend_mem_Icc distance l1 l2) (h.trans hclosed.symm)
    · rintro rfl
      exact hclosed
  · intro first
    rw [distance_linksEnd, hspan]

/-- Links of 3 and 4 that span 5 have a right angle between them. -/
theorem elbowBend_closes_right_angle :
    (0 : ℝ) < 3 ∧ (0 : ℝ) < 4 ∧ elbowBend? 5 3 4 = .ok (Real.pi / 2) ∧
      (linksEnd 3 4 0 (Real.pi / 2)).distance ⟨0, 0⟩ = 5 := by
  have hl1 : (0 : ℝ) < 3 := by norm_num
  have hl2 : (0 : ℝ) < 4 := by norm_num
  have hnear : |(3 : ℝ) - 4| ≤ 5 := by norm_num [abs_le]
  have hfar : (5 : ℝ) ≤ 3 + 4 := by norm_num
  obtain ⟨hbend, -, hspanned⟩ := elbowBend_closes hl1 hl2
  obtain ⟨hunique, hend⟩ := hspanned 5 hnear hfar
  have hright : Real.pi / 2 = elbowBend 5 3 4 := by
    refine (hunique (Real.pi / 2) ⟨by positivity, half_le_self Real.pi_pos.le⟩).mp ?_
    rw [Real.cos_pi_div_two]
    norm_num
  rw [hright]
  exact ⟨hl1, hl2, (hbend 5).1, hend 0⟩

end ArmRover
