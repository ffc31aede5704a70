import ArmRover.Arm.Inverse
import ArmRover.Proofs.Arm.Links
import Mathlib.Analysis.Real.Pi.Bounds

/-!
# The sweep

A sweep tries hand directions in small steps, and the best of them is no worse than any other. For a
position that the arm reaches within its limits, one of the directions is close to the one that the
hand has there, and the joints that belong to it are close to the limits too.

* `Candidate.AtMost`, `Candidate.Measured` — the best candidate so far, with what a step and a whole
  sweep preserve.
* `exists_mem_steps` — the coarse directions are everywhere.
* `distance_handed_le` — how far the tip misses with a direction that is close.
* `exists_swept?` — the answer of a sweep.
-/

namespace ArmRover.Arm

/-! ### The best candidate -/

namespace Candidate

variable {spot : Spot ℝ} {bound : ℝ} {best : Option (Candidate ℝ)} {c : Candidate ℝ}

/-- There is a candidate, with a miss within a bound. -/
def AtMost (bound : ℝ) (best : Option (Candidate ℝ)) : Prop := ∃ c, best = some c ∧ c.miss ≤ bound

/-- A candidate is within the limits, and its miss is the distance of its tip. -/
def Measured (spot : Spot ℝ) (best : Option (Candidate ℝ)) : Prop :=
  ∀ c, best = some c → c.planar.within = true ∧ c.miss = c.planar.tip.distance spot

theorem better_eq (best : Option (Candidate ℝ)) (c : Candidate ℝ) :
    better best c = some c ∧ (∀ b, best = some b → c.miss ≤ b.miss) ∨
      ∃ b, best = some b ∧ better best c = some b ∧ b.miss ≤ c.miss := by
  cases best with
  | none => exact .inl ⟨rfl, nofun⟩
  | some b =>
    by_cases h : c.miss < b.miss
    · refine .inl ⟨if_pos h, fun a ha => ?_⟩
      obtain rfl := Option.some.inj ha
      exact h.le
    · exact .inr ⟨b, rfl, if_neg h, not_lt.mp h⟩

theorem AtMost.better (h : AtMost bound best) (c : Candidate ℝ) :
    AtMost bound (Candidate.better best c) := by
  obtain ⟨b, hb, hmiss⟩ := h
  rcases better_eq best c with ⟨hc, hle⟩ | ⟨b', hb', hbetter, -⟩
  · exact ⟨c, hc, (hle b hb).trans hmiss⟩
  · obtain rfl := Option.some.inj (hb.symm.trans hb')
    exact ⟨b, hbetter, hmiss⟩

theorem atMost_better (best : Option (Candidate ℝ)) (c : Candidate ℝ) :
    AtMost c.miss (better best c) := by
  rcases better_eq best c with ⟨hc, -⟩ | ⟨b, -, hbetter, hle⟩
  · exact ⟨c, hc, le_rfl⟩
  · exact ⟨b, hbetter, hle⟩

theorem Measured.better (h : Measured spot best) (hwithin : c.planar.within = true)
    (hmiss : c.miss = c.planar.tip.distance spot) :
    Measured spot (Candidate.better best c) := by
  intro b hb
  rcases better_eq best c with ⟨hbetter, -⟩ | ⟨b', hb', hbetter, -⟩
  · obtain rfl := Option.some.inj (hbetter.symm.trans hb)
    exact ⟨hwithin, hmiss⟩
  · obtain rfl := Option.some.inj (hbetter.symm.trans hb)
    exact h b' hb'

end Candidate

open Candidate

section Best

variable {spot : Spot ℝ} {bound hand sign : ℝ} {hands : List ℝ} {best : Option (Candidate ℝ)}

theorem atMost_bestHanded (h : AtMost bound best) :
    AtMost bound (bestHanded spot hands sign best) := by
  unfold bestHanded
  induction hands generalizing best with
  | nil => exact h
  | cons hand rest ih => exact ih (h.better _)

theorem measured_bestHanded (h : Measured spot best) :
    Measured spot (bestHanded spot hands sign best) := by
  unfold bestHanded
  induction hands generalizing best with
  | nil => exact h
  | cons hand rest ih => exact ih (h.better (Planar.within_clamp _) rfl)

/-- The best of several directions misses by no more than any of them. -/
theorem atMost_bestHanded_of_mem (hmem : hand ∈ hands) :
    AtMost ((handed spot sign (Scalar.radians hand)).tip.distance spot)
      (bestHanded spot hands sign best) := by
  induction hands generalizing best with
  | nil => cases hmem
  | cons first rest ih =>
    rcases List.mem_cons.mp hmem with rfl | hmem
    · show AtMost _ (bestHanded spot rest sign _)
      exact atMost_bestHanded (atMost_better best ⟨hand, _, _⟩)
    · exact ih hmem

end Best

theorem atMost_bestAround {spot : Spot ℝ} {center span step bound : ℝ}
    {best : Option (Candidate ℝ)} (h : AtMost bound best) :
    AtMost bound (bestAround spot center span step best) :=
  atMost_bestHanded (atMost_bestHanded h)

theorem measured_bestAround {spot : Spot ℝ} {center span step : ℝ} {best : Option (Candidate ℝ)}
    (h : Measured spot best) : Measured spot (bestAround spot center span step best) :=
  measured_bestHanded (measured_bestHanded h)

/-- The hand directions of the coarse sweep, in degrees. -/
def coarseHands {α : Type} [Scalar α] : List α := steps (0 - 180) (0 + 180 + 0.1 / 2) 0.1

/-- A sweep refines the best of the coarse directions. -/
theorem swept?_eq {α : Type} [Scalar α] (spot : Spot α) :
    ∃ center span step, swept? spot =
      (bestAround spot center span step
        (bestHanded spot coarseHands (-1) (bestHanded spot coarseHands 1 none))).map planar :=
  ⟨_, _, _, rfl⟩

/-- A sweep misses by no more than any of its coarse directions, with the elbow to either side. -/
theorem exists_swept?_of_mem (spot : Spot ℝ) {hand sign : ℝ} (hmem : hand ∈ coarseHands)
    (hsign : sign = 1 ∨ sign = -1) :
    ∃ p, swept? spot = some p ∧ p.within = true ∧
      p.tip.distance spot ≤ (handed spot sign (Scalar.radians hand)).tip.distance spot := by
  obtain ⟨center, span, step, heq⟩ := swept?_eq spot
  rw [Scalar.one_real, Scalar.neg_real] at heq
  have hcoarse : AtMost ((handed spot sign (Scalar.radians hand)).tip.distance spot)
      (bestHanded spot coarseHands (-1) (bestHanded spot coarseHands 1 none)) := by
    rcases hsign with rfl | rfl
    · exact atMost_bestHanded (atMost_bestHanded_of_mem hmem)
    · exact atMost_bestHanded_of_mem hmem
  have hmeasured : Measured spot
      (bestHanded spot coarseHands (-1) (bestHanded spot coarseHands 1 none)) :=
    measured_bestHanded (measured_bestHanded nofun)
  obtain ⟨c, hc, hmiss⟩ : AtMost _ (bestAround spot center span step _) := atMost_bestAround hcoarse
  obtain ⟨hwithin, hdistance⟩ := measured_bestAround hmeasured c hc
  refine ⟨c.planar, ?_, hwithin, ?_⟩
  · rw [heq, hc]
    rfl
  · rw [← hdistance]
    exact hmiss

/-! ### Directions that are close -/

/-- The coarse directions go all around, a tenth of a degree apart. -/
theorem coarseHands_eq :
    (coarseHands : List ℝ) = (List.range 3601).map fun i : ℕ => -180 + (i : ℝ) / 10 := by
  have hcount : Scalar.ceil (3600.5 : ℝ) = 3601 := by
    have hfloor : ⌊-(3600.5 : ℝ)⌋ = -3601 := by
      rw [Int.floor_eq_iff]
      norm_num
    show -⌊-(3600.5 : ℝ)⌋ = 3601
    rw [hfloor]
    rfl
  have hsteps : (0 + 180 + ((1 : Nat) : ℝ) / 10 ^ 1 / 2 - (0 - 180)) /
      (((1 : Nat) : ℝ) / 10 ^ 1) = 3600.5 := by norm_num
  unfold coarseHands steps
  simp only [Scalar.ofScientific_real, Scalar.numeral_real, Scalar.zero_real, Scalar.sub_real,
    Scalar.add_real, Scalar.div_real, Scalar.mul_real, Scalar.ofInt_real]
  rw [hsteps, hcount]
  apply List.map_congr_left
  intro i _
  push_cast
  ring

theorem mem_coarseHands {i : Nat} (hi : i ≤ 3600) : (-180 + i / 10 : ℝ) ∈ coarseHands := by
  rw [coarseHands_eq]
  exact List.mem_map.mpr ⟨i, List.mem_range.mpr (Nat.lt_succ_of_le hi), rfl⟩

/-- Any direction is within half a step of a coarse one. -/
theorem exists_mem_coarseHands (θ : ℝ) :
    ∃ hand ∈ (coarseHands : List ℝ),
      ‖direction (Scalar.radians hand) - direction θ‖ ≤ Real.pi / 3600 := by
  set x := wrap (Scalar.degrees θ) with hx
  have hlower : -180 ≤ x := neg_180_le_wrap _
  have hupper : x < 180 := wrap_lt_180 _
  set i := ⌊(x + 180) * 10 + 1 / 2⌋₊ with hi
  have hle : (i : ℝ) ≤ (x + 180) * 10 + 1 / 2 := Nat.floor_le (by linarith)
  have hlt : (x + 180) * 10 + 1 / 2 < i + 1 := Nat.lt_floor_add_one _
  have hcount : i ≤ 3600 := by
    have h : (i : ℝ) < 3601 := by linarith
    exact Nat.lt_succ_iff.mp (by exact_mod_cast h)
  refine ⟨-180 + i / 10, mem_coarseHands hcount, ?_⟩
  have hturn : direction θ = direction (Scalar.radians x) := by
    rw [hx, direction_wrap, Scalar.radians_degrees]
  rw [hturn]
  refine (norm_direction_sub_le _ _).trans ?_
  rw [Scalar.radians_real, Scalar.radians_real, ← sub_mul, abs_mul,
    abs_of_pos (by positivity : 0 < Real.pi / 180)]
  have hclose : |-180 + i / 10 - x| ≤ 1 / 20 := by
    rw [abs_le]
    constructor <;> linarith
  calc
    |-180 + i / 10 - x| * (Real.pi / 180) ≤ 1 / 20 * (Real.pi / 180) := by gcongr
    _ = Real.pi / 3600 := by ring

/-! ### How far a close direction misses -/

theorem sin_half_add_ge {x y k : ℝ} (hx : x ∈ Set.Icc 0 Real.pi) (hy : y ∈ Set.Icc 0 Real.pi)
    (hkx : k ≤ Real.sin x) (hky : k ≤ Real.sin y) : k ≤ Real.sin ((x + y) / 2) := by
  have hnonneg : 0 ≤ Real.sin ((x + y) / 2) :=
    Real.sin_nonneg_of_nonneg_of_le_pi (by linarith [hx.1, hy.1]) (by linarith [hx.2, hy.2])
  have hsum := Real.sin_add_sin x y
  have hle := mul_le_mul_of_nonneg_left (Real.cos_le_one ((x - y) / 2)) hnonneg
  linarith

theorem le_sin_of_cos {x : ℝ} (hx : x ∈ Set.Icc 0 Real.pi) (hlower : -0.87 ≤ Real.cos x)
    (hupper : Real.cos x ≤ 0.46) : 0.49 ≤ Real.sin x := by
  have hsin := Real.sin_nonneg_of_nonneg_of_le_pi hx.1 hx.2
  have hsq := Real.sin_sq_add_cos_sq x
  nlinarith

section Accuracy

variable {spot : Spot ℝ} {posed : Planar ℝ} {hand : ℝ}

theorem pi_div_3600_le : Real.pi / 3600 ≤ 0.000873 := by
  linarith [Real.pi_lt_d4]

/-- The wrist is close to where it is in a pose in which the tip and the hand are close. -/
theorem norm_wristOf_sub_le (hclose : ‖spot.point - posed.tip.point‖ ≤ 2e-9)
    (hhand : ‖direction hand - direction posed.handAngle‖ ≤ Real.pi / 3600) :
    ‖(wristOf spot hand).point - posed.wristPoint‖ ≤ 0.0004 := by
  have hsplit : (wristOf spot hand).point - posed.wristPoint =
      (spot.point - posed.tip.point) -
        (0.45 : ℝ) * (direction hand - direction posed.handAngle) := by
    rw [wristOf_point, Planar.tip_point]
    push_cast
    ring
  rw [hsplit]
  have hnorm := norm_link_sub (by norm_num : (0 : ℝ) ≤ 0.45) hand posed.handAngle
  have hle := norm_sub_le (spot.point - posed.tip.point)
    ((0.45 : ℝ) * (direction hand - direction posed.handAngle))
  linarith [pi_div_3600_le]

theorem sq_norm_wristPoint (posed : Planar ℝ) :
    ‖posed.wristPoint‖ ^ 2 = 1.13 + 1.12 * Real.cos (Scalar.radians posed.elbow) := by
  rw [wristPoint_eq_mul, norm_mul, norm_direction, one_mul, sq_norm_links]
  ring

theorem handCosine_eq (spot : Spot ℝ) (hand : ℝ) :
    handCosine spot hand = (‖(wristOf spot hand).point‖ ^ 2 - 1.13) / 1.12 := by
  unfold handCosine
  rw [bendCosine_real]
  ring

/-- An elbow in its range is not folded. -/
theorem le_cos_of_elbow_within {x : ℝ} (h : Joint.elbow.within x = true) :
    -0.8661 ≤ Real.cos (Scalar.radians x) := by
  rw [Joint.within_iff_abs_radians_le, Joint.radians_elbow_limit] at h
  obtain ⟨-, hsqrt⟩ := sqrt_three_bounds
  have hle := Real.cos_le_cos_of_nonneg_of_le_pi (abs_nonneg _) (by linarith [Real.pi_pos]) h
  rw [Real.cos_abs, cos_five_pi_div_six] at hle
  linarith

/-- What a spot near the pivot has in common with a pose that comes close to it: neither the elbow
there nor the one that a close hand direction asks for is nearly straight or folded. -/
theorem elbow_bounds (hposed : posed.within = true) (hspot : ‖spot.point‖ ^ 2 ≤ 0.69)
    (hwrist : ‖(wristOf spot hand).point - posed.wristPoint‖ ≤ 0.0004) :
    (-0.87 ≤ handCosine spot hand ∧ handCosine spot hand ≤ 0.46) ∧
      -0.87 ≤ Real.cos (Scalar.radians posed.elbow) ∧
      Real.cos (Scalar.radians posed.elbow) ≤ 0.46 := by
  have helbow := le_cos_of_elbow_within (Planar.within_iff.mp hposed).2.1
  have hposedNorm := sq_norm_wristPoint posed
  have hupper : ‖(wristOf spot hand).point‖ ≤ 1.281 := by
    have hspotNorm : ‖spot.point‖ ≤ 0.831 :=
      le_of_sq_le_sq (hspot.trans (by norm_num)) (by norm_num)
    have hpalm : ‖(0.45 * direction hand : ℂ)‖ = 0.45 := by
      rw [norm_mul, norm_direction]
      norm_num
    rw [wristOf_point]
    linarith [norm_sub_le spot.point (0.45 * direction hand)]
  have hclose := abs_le.mp ((abs_norm_sub_norm_le _ _).trans hwrist)
  have hlower : 0.3999 ≤ ‖posed.wristPoint‖ :=
    le_of_sq_le_sq (by linarith) (norm_nonneg _)
  rw [handCosine_eq]
  refine ⟨⟨?_, ?_⟩, ?_, ?_⟩
  · rw [le_div_iff₀ (by norm_num)]
    nlinarith
  · rw [div_le_iff₀ (by norm_num)]
    nlinarith [norm_nonneg (wristOf spot hand).point]
  · linarith
  · nlinarith [norm_nonneg posed.wristPoint]

/-- Two poses with wrists that are close, and elbows that are neither nearly straight nor folded,
have upper arms and forearms in directions that are close. -/
theorem norm_links_sub_le (p q : Planar ℝ)
    (helbows : 0.49 ≤ |Real.sin ((Scalar.radians p.elbow + Scalar.radians q.elbow) / 2)|)
    (hwrist : ‖p.wristPoint - q.wristPoint‖ ≤ 0.0004) :
    ‖direction (Scalar.radians p.shoulder) - direction (Scalar.radians q.shoulder)‖ ≤ 0.00103 ∧
      ‖direction (Scalar.radians p.shoulder + Scalar.radians p.elbow) -
        direction (Scalar.radians q.shoulder + Scalar.radians q.elbow)‖ ≤ 0.00117 := by
  have hends : p.wristPoint - q.wristPoint =
      (0.8 : ℝ) * (direction (Scalar.radians p.shoulder) - direction (Scalar.radians q.shoulder)) +
        (0.7 : ℝ) * (direction (Scalar.radians p.shoulder + Scalar.radians p.elbow) -
          direction (Scalar.radians q.shoulder + Scalar.radians q.elbow)) := by
    unfold Planar.wristPoint
    push_cast
    ring
  rw [hends] at hwrist
  have hupper := (mul_norm_direction_sub_le _ _ _ _ (by norm_num)).trans hwrist
  rw [add_comm] at hwrist
  have hfore := (mul_norm_direction_sub_le _ _ _ _ (by norm_num)).trans hwrist
  have hmean : (Scalar.radians p.shoulder + Scalar.radians p.elbow +
      (Scalar.radians q.shoulder + Scalar.radians q.elbow) -
        (Scalar.radians p.shoulder + Scalar.radians q.shoulder)) / 2 =
      (Scalar.radians p.elbow + Scalar.radians q.elbow) / 2 := by ring
  have hmean' : (Scalar.radians p.shoulder + Scalar.radians q.shoulder -
      (Scalar.radians p.shoulder + Scalar.radians p.elbow +
        (Scalar.radians q.shoulder + Scalar.radians q.elbow))) / 2 =
      -((Scalar.radians p.elbow + Scalar.radians q.elbow) / 2) := by ring
  rw [hmean] at hupper
  rw [hmean', Real.sin_neg, abs_neg] at hfore
  constructor
  · nlinarith [norm_nonneg
      (direction (Scalar.radians p.shoulder) - direction (Scalar.radians q.shoulder))]
  · nlinarith [norm_nonneg (direction (Scalar.radians p.shoulder + Scalar.radians p.elbow) -
      direction (Scalar.radians q.shoulder + Scalar.radians q.elbow))]

end Accuracy

/-! ### Within the limits -/

/-- The angles wrapped and brought into their ranges. -/
noncomputable def limited (p : Planar ℝ) : Planar ℝ :=
  Planar.clamp ⟨wrap p.shoulder, wrap p.elbow, wrap p.wrist⟩

theorem limited_eq (p : Planar ℝ) : limited p = p.wrapped.clamp := rfl

theorem handed_real (spot : Spot ℝ) (sign hand : ℝ) :
    handed spot sign hand =
      limited (handAt spot (sign * Real.arccos (handCosine spot hand)) hand) := by
  unfold handed limited handAt handCosine
  simp only [handSpan_real, Spot.hypot_eq_norm, upperArm_real, forearm_real, Scalar.sub_real,
    Scalar.mul_real, Scalar.sin_real, Scalar.cos_real, Scalar.one_real, Scalar.neg_real, acos_clamp]
  rfl

theorem wrap_of_within {j : Joint} {x : ℝ} (hj : (j.limit : ℝ) < 180) (h : j.within x = true) :
    wrap x = x := by
  obtain ⟨hlower, hupper⟩ := Joint.within_iff.mp h
  rw [Scalar.le_real, Scalar.neg_real] at hlower
  rw [Scalar.le_real] at hupper
  have hfloor : ⌊(x + 180) / 360⌋ = 0 := by
    rw [Int.floor_eq_zero_iff]
    constructor
    · apply div_nonneg <;> linarith
    · rw [div_lt_one (by norm_num)]
      linarith
  rw [wrap_real, hfloor, Int.cast_zero, zero_mul, sub_zero]

/-- Angles in their ranges stay as they are. -/
theorem wrapped_of_within {p : Planar ℝ} (h : p.within = true) : p.wrapped = p := by
  obtain ⟨hs, he, hw⟩ := Planar.within_iff.mp h
  unfold Planar.wrapped
  rw [wrap_of_within (by norm_num [Joint.limit]) hs, wrap_of_within (by norm_num [Joint.limit]) he,
    wrap_of_within (by norm_num [Joint.limit]) hw]

theorem limited_of_within {p : Planar ℝ} (h : p.within = true) : limited p = p := by
  rw [limited_eq, wrapped_of_within h, Planar.clamp_of_within h]

/-- Bringing a joint into its range moves a link no farther than to any angle in the range. -/
theorem norm_direction_limited_le {j : Joint} {x y : ℝ} (hy : j.within y = true) :
    ‖direction (Scalar.radians (j.clamp (wrap x))) - direction (Scalar.radians x)‖ ≤
      ‖direction (Scalar.radians y) - direction (Scalar.radians x)‖ := by
  rw [← direction_wrap x]
  exact Joint.norm_direction_clamp_sub_le hy (abs_radians_wrap_le x)

/-- The tip misses by little if the joints are brought into their ranges, and a pose within the
limits has links in directions that are close. -/
theorem norm_tip_limited_sub_le {found posed : Planar ℝ} (hposed : posed.within = true)
    (hshoulder : ‖direction (Scalar.radians found.shoulder) -
      direction (Scalar.radians posed.shoulder)‖ ≤ 0.00103)
    (hforearm : ‖direction (Scalar.radians found.shoulder + Scalar.radians found.elbow) -
      direction (Scalar.radians posed.shoulder + Scalar.radians posed.elbow)‖ ≤ 0.00117)
    (hhand : ‖direction found.handAngle - direction posed.handAngle‖ ≤ 0.000873) :
    ‖(limited found).tip.point - found.tip.point‖ ≤ 0.006 := by
  obtain ⟨hs, he, hw⟩ := Planar.within_iff.mp hposed
  have helbow : ‖direction (Scalar.radians found.elbow) - direction (Scalar.radians posed.elbow)‖ ≤
      0.00117 + 0.00103 := by
    have h := norm_direction_sub_sub_le
      (Scalar.radians found.shoulder + Scalar.radians found.elbow) (Scalar.radians found.shoulder)
      (Scalar.radians posed.shoulder + Scalar.radians posed.elbow) (Scalar.radians posed.shoulder)
    rw [add_sub_cancel_left, add_sub_cancel_left] at h
    linarith
  have hwrist : ‖direction (Scalar.radians found.wrist) - direction (Scalar.radians posed.wrist)‖ ≤
      0.000873 + 0.00117 := by
    have h := norm_direction_sub_sub_le found.handAngle
      (Scalar.radians found.shoulder + Scalar.radians found.elbow) posed.handAngle
      (Scalar.radians posed.shoulder + Scalar.radians posed.elbow)
    unfold Planar.handAngle at h hhand
    rw [add_sub_cancel_left, add_sub_cancel_left] at h
    linarith
  rw [norm_sub_rev] at hshoulder helbow hwrist
  have hle := Planar.norm_tip_sub_le (limited found) found
  have hs' := (norm_direction_limited_le hs).trans hshoulder
  have he' := (norm_direction_limited_le he).trans helbow
  have hw' := (norm_direction_limited_le hw).trans hwrist
  unfold limited Planar.clamp at hle ⊢
  linarith

/-- The side to which an elbow is bent. -/
theorem exists_side (x : ℝ) : ∃ sign : ℝ, (sign = 1 ∨ sign = -1) ∧ x = sign * |x| := by
  rcases le_total 0 x with h | h
  · exact ⟨1, .inl rfl, by rw [abs_of_nonneg h, one_mul]⟩
  · exact ⟨-1, .inr rfl, by rw [abs_of_nonpos h, neg_one_mul, neg_neg]⟩

theorem cos_side_mul {sign : ℝ} (h : sign = 1 ∨ sign = -1) (x : ℝ) :
    Real.cos (sign * x) = Real.cos x := by
  rcases h with rfl | rfl
  · rw [one_mul]
  · rw [neg_one_mul, Real.cos_neg]

theorem abs_sin_side_mul {sign : ℝ} (h : sign = 1 ∨ sign = -1) (x : ℝ) :
    |Real.sin (sign * x)| = |Real.sin x| := by
  rcases h with rfl | rfl
  · rw [one_mul]
  · rw [neg_one_mul, Real.sin_neg, abs_neg]

/-- A hand direction close to the one in a pose brings the tip close, with the elbow bent to the
side to which it is bent in the pose. -/
theorem exists_distance_handed_le {spot : Spot ℝ} {posed : Planar ℝ} {hand : ℝ}
    (hposed : posed.within = true) (hspot : ‖spot.point‖ ^ 2 ≤ 0.69)
    (hclose : ‖spot.point - posed.tip.point‖ ≤ 2e-9)
    (hhand : ‖direction hand - direction posed.handAngle‖ ≤ Real.pi / 3600) :
    ∃ sign : ℝ, (sign = 1 ∨ sign = -1) ∧ (handed spot sign hand).tip.distance spot ≤ 0.006 := by
  have hwrist := norm_wristOf_sub_le hclose hhand
  obtain ⟨⟨hlower, hupper⟩, hposedLower, hposedUpper⟩ := elbow_bounds hposed hspot hwrist
  set bend := Real.arccos (handCosine spot hand) with hbend
  have hcos : Real.cos bend = handCosine spot hand :=
    Real.cos_arccos (by linarith) (by linarith)
  have helbow : |Scalar.radians posed.elbow| ≤ Real.pi := by
    have h := Joint.within_iff_abs_radians_le.mp (Planar.within_iff.mp hposed).2.1
    rw [Joint.radians_elbow_limit] at h
    linarith [Real.pi_pos]
  have hmean : 0.49 ≤ Real.sin ((bend + |Scalar.radians posed.elbow|) / 2) := by
    have hrange : bend ∈ Set.Icc 0 Real.pi := ⟨Real.arccos_nonneg _, Real.arccos_le_pi _⟩
    have hrange' : |Scalar.radians posed.elbow| ∈ Set.Icc 0 Real.pi := ⟨abs_nonneg _, helbow⟩
    refine sin_half_add_ge hrange hrange' (le_sin_of_cos hrange ?_ ?_)
      (le_sin_of_cos hrange' ?_ ?_)
    · rw [hcos]; exact hlower
    · rw [hcos]; exact hupper
    · rw [Real.cos_abs]; exact hposedLower
    · rw [Real.cos_abs]; exact hposedUpper
  obtain ⟨sign, hsign, hposedElbow⟩ := exists_side (Scalar.radians posed.elbow)
  have hside : Real.cos (sign * bend) = handCosine spot hand := (cos_side_mul hsign bend).trans hcos
  set found := handAt spot (sign * bend) hand with hfound
  have hfoundElbow : Scalar.radians found.elbow = sign * bend := by
    simp only [hfound, handAt, Planar.ofRadians, Scalar.radians_degrees]
  have hfoundWrist : ‖found.wristPoint - posed.wristPoint‖ ≤ 0.0004 := by
    rw [hfound, wristPoint_handAt hside]
    exact hwrist
  have hsin :
      0.49 ≤ |Real.sin ((Scalar.radians found.elbow + Scalar.radians posed.elbow) / 2)| := by
    rw [hfoundElbow, hposedElbow, ← mul_add, mul_div_assoc, abs_sin_side_mul hsign]
    exact hmean.trans (le_abs_self _)
  obtain ⟨hshoulder, hforearm⟩ := norm_links_sub_le found posed hsin hfoundWrist
  refine ⟨sign, hsign, ?_⟩
  rw [Spot.distance_eq_norm, handed_real, ← hbend, ← hfound, ← tip_handAt hside, ← hfound]
  refine norm_tip_limited_sub_le hposed hshoulder hforearm ?_
  rw [hfound, handAngle_handAt]
  exact hhand.trans pi_div_3600_le

/-- A sweep brings the tip close to any position near the pivot that a pose within the limits comes
close to. -/
theorem exists_swept? {spot : Spot ℝ} {posed : Planar ℝ} (hposed : posed.within = true)
    (hspot : ‖spot.point‖ ^ 2 ≤ 0.69) (hclose : ‖spot.point - posed.tip.point‖ ≤ 2e-9) :
    ∃ p, swept? spot = some p ∧ p.within = true ∧ p.tip.distance spot ≤ 0.006 := by
  obtain ⟨hand, hmem, hhand⟩ := exists_mem_coarseHands posed.handAngle
  obtain ⟨sign, hsign, hmiss⟩ := exists_distance_handed_le hposed hspot hclose hhand
  obtain ⟨p, hp, hwithin, hle⟩ := exists_swept?_of_mem spot hmem hsign
  exact ⟨p, hp, hwithin, hle.trans hmiss⟩

/-! ### The plane of the arm -/

/-- A level hand comes first, then a straight wrist that misses by no more than the tolerance, then
the sweep. -/
theorem planarFor?_real (spot : Spot ℝ) (τ : ℝ) :
    planarFor? spot (.real τ) = .ok ((level? spot).getD
      (if τ < (stretched spot).clamp.tip.distance spot then
        (swept? spot).getD (stretched spot).clamp else (stretched spot).clamp)) := by
  unfold planarFor?
  cases level? spot with
  | some p => rfl
  | none =>
    show (if decide (τ < (stretched spot).clamp.tip.distance spot) then _ else _) = _
    by_cases hmiss : τ < (stretched spot).clamp.tip.distance spot
    · rw [if_pos (decide_eq_true hmiss), if_pos hmiss]
      rfl
    · rw [if_neg (ne_true_of_eq_false (decide_eq_false hmiss)), if_neg hmiss]
      rfl

end ArmRover.Arm
