import ArmRover.Proofs.Arm.Level

/-!
# The candidates of a sweep

A sweep solves the arm for each of its hand directions. Each candidate is within the limits and
comes with the distance by which its tip misses, which is none where the links extend to the wrist
and the limits leave the angles as they are. The angles that a sweep ends with miss by no more than
any candidate of its coarse directions.

* `Arm.solved` — the angles for a hand direction before they are wrapped and limited,
  `Arm.solved_tip` — those of a pose are its own.
* `Arm.distance_handed_eq_zero` — no miss.
* `Arm.sweep_measured` — the candidates and the best of them.
-/

namespace ArmRover.Arm

variable {spot : Spot ℝ} {sign hand : ℝ}

/-- The angles for a hand direction, in radians, with the elbow bent to one side, before they are
wrapped and brought into their ranges. -/
noncomputable def solved (spot : Spot ℝ) (sign hand : ℝ) : Planar ℝ :=
  handAt spot (sign * Real.arccos (handCosine spot hand)) hand

theorem handed_eq (spot : Spot ℝ) (sign hand : ℝ) :
    handed spot sign hand = (solved spot sign hand).wrapped.clamp := by
  rw [handed_real, limited_eq]
  rfl

theorem within_handed (spot : Spot ℝ) (sign hand : ℝ) : (handed spot sign hand).within = true := by
  rw [handed_eq]
  exact Planar.within_clamp _

/-! ### Candidates that do not miss -/

/-- If the links extend to the wrist, the tip is where it is wanted. -/
theorem tip_solved (hsign : sign = 1 ∨ sign = -1) (hnear : 0.1 ≤ ‖(wristOf spot hand).point‖)
    (hfar : ‖(wristOf spot hand).point‖ ≤ 1.5) : (solved spot sign hand).tip = spot := by
  have hcosine : Real.cos (Real.arccos (handCosine spot hand)) = handCosine spot hand := by
    rw [handCosine_eq]
    apply Real.cos_arccos
    · rw [le_div_iff₀ (by norm_num)]
      nlinarith
    · rw [div_le_iff₀ (by norm_num)]
      nlinarith
  apply Spot.point_injective
  exact tip_handAt ((cos_side_mul hsign _).trans hcosine)

/-- If the limits leave the wrapped angles as they are besides, the candidate does not miss. -/
theorem distance_handed_eq_zero (hsign : sign = 1 ∨ sign = -1)
    (hnear : 0.1 ≤ ‖(wristOf spot hand).point‖) (hfar : ‖(wristOf spot hand).point‖ ≤ 1.5)
    (hwithin : (solved spot sign hand).wrapped.within = true) :
    (handed spot sign hand).tip.distance spot = 0 := by
  rw [handed_eq, Planar.clamp_of_within hwithin, Planar.tip_wrapped, tip_solved hsign hnear hfar,
    Spot.distance_eq_norm, sub_self, norm_zero]

/-- In the direction that the hand has in a pose, with the elbow bent to its side, the angles are
those of the pose. -/
theorem solved_tip {q : Planar ℝ} (hwithin : q.within = true)
    (hside : Scalar.radians q.elbow = sign * |Scalar.radians q.elbow|) :
    solved q.tip sign q.handAngle = q := by
  unfold solved
  rw [handCosine_tip, arccos_cos_of_elbow_within (Planar.within_iff.mp hwithin).2.1, ← hside]
  exact handAt_tip (Planar.within_iff.mp hwithin).1

theorem norm_wristPoint_bounds (p : Planar ℝ) :
    0.1 ≤ ‖p.wristPoint‖ ∧ ‖p.wristPoint‖ ≤ 1.5 := by
  have hsq := sq_norm_wristPoint p
  have hcos := Real.neg_one_le_cos (Scalar.radians p.elbow)
  have hcos' := Real.cos_le_one (Scalar.radians p.elbow)
  constructor
  · exact le_of_sq_le_sq (by linarith) (norm_nonneg _)
  · exact le_of_sq_le_sq (by linarith) (by norm_num)

/-! ### The sweep -/

theorem getElem?_sweep (spot : Spot ℝ) (hands : List ℝ) (sign : ℝ) (i : ℕ) :
    (sweep spot hands sign)[i]? = hands[i]?.map fun hand =>
      (handed spot sign hand, (handed spot sign hand).tip.distance spot) := by
  simp [sweep]

/-- What a sweep ends with misses by no more than any candidate of its coarse directions. -/
theorem exists_swept?_le (spot : Spot ℝ) :
    ∃ p, swept? spot = some p ∧ p.within = true ∧
      ∀ side : ℝ, side = 1 ∨ side = -1 → ∀ c ∈ sweep spot (coarseHands.map Scalar.radians) side,
        p.tip.distance spot ≤ c.2 := by
  have hmem : (-180 + (0 : ℕ) / 10 : ℝ) ∈ coarseHands := mem_coarseHands (Nat.zero_le _)
  obtain ⟨p, hp, hwithin, -⟩ := exists_swept?_of_mem spot hmem (.inl rfl)
  refine ⟨p, hp, hwithin, fun side hside c hc => ?_⟩
  unfold sweep at hc
  obtain ⟨_, hhand, rfl⟩ := List.mem_map.mp hc
  obtain ⟨hand, hcoarse, rfl⟩ := List.mem_map.mp hhand
  obtain ⟨p', hp', -, hle⟩ := exists_swept?_of_mem spot hcoarse hside
  obtain rfl := Option.some.inj (hp.symm.trans hp')
  exact hle

/-- A sweep has one candidate for each hand direction, in their order. A candidate is within the
limits and comes with the distance of its tip, which is zero if the two links extend to the wrist and
the wrapped angles are within the limits. What the search over all directions ends with misses by no
more than any candidate in steps of a tenth of a degree, with the elbow bent to either side. -/
theorem sweep_measured (spot : Spot ℝ) (hands : List ℝ) (hsign : sign = 1 ∨ sign = -1) :
    (sweep spot hands sign).length = hands.length ∧
      (∀ (i : ℕ) (hand : ℝ), hands[i]? = some hand →
        ∃ c, (sweep spot hands sign)[i]? = some c ∧
          c.1 = (solved spot sign hand).wrapped.clamp ∧ c.1.within = true ∧
          c.2 = c.1.tip.distance spot ∧
          (|upperArm - forearm| ≤
              Scalar.hypot (wristOf spot hand).reach (wristOf spot hand).height →
            Scalar.hypot (wristOf spot hand).reach (wristOf spot hand).height ≤
              upperArm + forearm →
            (solved spot sign hand).wrapped.within = true → c.2 = 0)) ∧
      ∃ p, swept? spot = some p ∧ p.within = true ∧
        ∀ side : ℝ, side = 1 ∨ side = -1 →
          ∀ c ∈ sweep spot
            ((List.range 3601).map fun i : ℕ => Scalar.radians (-180 + (i : ℝ) / 10)) side,
            p.tip.distance spot ≤ c.2 := by
  have hshort : |(upperArm - forearm : ℝ)| = 0.1 := by
    rw [upperArm_real, forearm_real, abs_of_pos (by norm_num)]
    norm_num
  have hlong : (upperArm + forearm : ℝ) = 1.5 := by
    rw [upperArm_real, forearm_real]
    norm_num
  refine ⟨List.length_map _, fun i hand hhand => ?_, ?_⟩
  · refine ⟨(handed spot sign hand, (handed spot sign hand).tip.distance spot), ?_,
      handed_eq spot sign hand, within_handed spot sign hand, rfl, fun hnear hfar hwithin => ?_⟩
    · rw [getElem?_sweep, hhand, Option.map_some]
    · rw [Spot.hypot_eq_norm, hshort] at hnear
      rw [Spot.hypot_eq_norm, hlong] at hfar
      exact distance_handed_eq_zero hsign hnear hfar hwithin
  · have hcoarse : (List.range 3601).map (fun i : ℕ => Scalar.radians (-180 + (i : ℝ) / 10)) =
        coarseHands.map Scalar.radians := by
      rw [coarseHands_eq, List.map_map]
      rfl
    rw [hcoarse]
    exact exists_swept?_le spot

/-- The position of a pose with a level hand, an upright hand and a level one. -/
theorem sweep_measured_posed :
    ((1 : ℝ) = 1 ∨ (1 : ℝ) = -1) ∧
      (sweep (⟨30, 120, -60⟩ : Planar ℝ).tip [0, Real.pi / 2] 1)[1]? =
        some (⟨30, 120, -60⟩, 0) := by
  have hsign : (1 : ℝ) = 1 ∨ (1 : ℝ) = -1 := .inl rfl
  have hwithin : (⟨30, 120, -60⟩ : Planar ℝ).within = true := by
    rw [Planar.within_iff]
    norm_num [Joint.within_iff, Joint.limit]
  have hlevel : (⟨30, 120, -60⟩ : Planar ℝ).handAngle = Real.pi / 2 := by
    rw [Planar.handAngle_eq_half_pi_iff]
    norm_num
  have hup : 0 ≤ Scalar.radians (120 : ℝ) := by
    rw [Scalar.radians_real]
    positivity
  obtain ⟨-, hcandidates, -⟩ :=
    sweep_measured (⟨30, 120, -60⟩ : Planar ℝ).tip [0, Real.pi / 2] hsign
  obtain ⟨⟨posed, miss⟩, hc, hposed, -, -, hmiss⟩ := hcandidates 1 (Real.pi / 2) rfl
  have hsolved : solved (⟨30, 120, -60⟩ : Planar ℝ).tip 1 (Real.pi / 2) = ⟨30, 120, -60⟩ := by
    rw [← hlevel]
    apply solved_tip hwithin
    rw [one_mul, abs_of_nonneg hup]
  rw [hsolved, wrapped_of_within hwithin] at hposed hmiss
  rw [Planar.clamp_of_within hwithin] at hposed
  obtain ⟨hnear, hfar⟩ := norm_wristPoint_bounds ⟨30, 120, -60⟩
  rw [← hlevel, Spot.hypot_eq_norm, wristOf_tip, upperArm_real, forearm_real] at hmiss
  have hzero : miss = 0 := hmiss (le_trans (by norm_num) hnear) (hfar.trans (by norm_num)) hwithin
  refine ⟨hsign, ?_⟩
  rw [hc]
  exact congrArg some (Prod.ext hposed hzero)

end ArmRover.Arm
