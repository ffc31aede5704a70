import ArmRover.Proofs.Arm.Straight
import ArmRover.Proofs.Arm.Sweep

/-!
# Right below the pivot

Right below the pivot no level hand is found, and the elbow of the arm with a straight
wrist would have to bend beyond its range. It stops at its limit, and the tip short of the position.
With the hand pointing back and down the tip comes to such positions all the same.

* `Arm.level?_eq_none` — no level hand.
* `Arm.tip_stretched_clamp` — where the arm with a straight wrist stops.
* `Arm.Below` — positions right below the pivot, `Arm.Below.within_handAt` — a hand that points back
  comes to them, `Arm.Below.exists_planarFor?` — and a pass as well.
* `Arm.edge`, `Arm.stop` — the positions that the tip stops short of by the tolerance, and where it
  stops; `Arm.exists_planarFor?_edge` — it does.
-/

namespace ArmRover.Arm

/-! ### A level hand -/

/-- At a position below the pivot and hardly ahead of it no level hand is found: with the elbow up
the shoulder would turn too far back, with the elbow down the wrist too far up. -/
theorem level?_eq_none {p : Spot ℝ} (hreach : p.reach < 0.45) (hheight : p.height < 0) :
    level? p = none := by
  have harg : (wristOf p (Real.pi / 2)).point.arg < -(Real.pi / 2) := by
    rw [← not_le, Complex.neg_pi_div_two_le_arg_iff, wristOf_point]
    simp [Spot.point]
    exact ⟨hheight, hreach⟩
  set bend := Real.arccos (handCosine p (Real.pi / 2)) with hbend
  have hbendNonneg : 0 ≤ bend := Real.arccos_nonneg _
  have hup : ¬ (handAt p bend (Real.pi / 2)).within = true := by
    intro hwithin
    have hlinks : 0 ≤ ((0.8 : ℝ) + (0.7 : ℝ) * direction bend : ℂ).arg := by
      have hsin := Real.sin_nonneg_of_nonneg_of_le_pi hbendNonneg (Real.arccos_le_pi _)
      rw [Complex.arg_nonneg_iff]
      simp
      linarith
    have hshoulder := (Planar.within_iff.mp hwithin).1
    rw [Joint.within_iff_abs_radians_le, Joint.radians_shoulder_limit] at hshoulder
    simp only [handAt, Planar.ofRadians, Scalar.radians_degrees, shoulderAngle_real] at hshoulder
    linarith [(abs_le.mp hshoulder).1]
  have hdown : ¬ (handAt p (-bend) (Real.pi / 2)).within = true := by
    intro hwithin
    have hlinks : -(Real.pi / 2) ≤ ((0.8 : ℝ) + (0.7 : ℝ) * direction (-bend) : ℂ).arg := by
      rw [Complex.neg_pi_div_two_le_arg_iff]
      left
      simp
      linarith [Real.neg_one_le_cos bend]
    have hwrist := (Planar.within_iff.mp hwithin).2.2
    rw [Joint.within_iff_abs_radians_le, Joint.radians_wrist_limit] at hwrist
    simp only [handAt, Planar.ofRadians, Scalar.radians_degrees, shoulderAngle_real] at hwrist
    linarith [(abs_le.mp hwrist).2]
  rw [level?_real, ← hbend, if_neg hup, if_neg hdown, ite_self]

/-! ### A straight wrist -/

/-- The arm with a straight wrist and the elbow at its limit, before the shoulder turns it. -/
noncomputable def foldedLinks : ℂ := (0.8 : ℝ) + (1.15 : ℝ) * direction (5 * Real.pi / 6)

theorem sq_norm_foldedLinks : ‖foldedLinks‖ ^ 2 = 1.9625 - 0.92 * √3 := by
  unfold foldedLinks
  rw [sq_norm_links, cos_five_pi_div_six]
  ring

theorem le_straightBend {p : Spot ℝ} (h : ‖p.point‖ ^ 2 ≤ 1.9625 - 0.92 * √3) :
    5 * Real.pi / 6 ≤ straightBend p := by
  unfold straightBend
  rw [bendCosine_real, ← arccos_neg_sqrt_three_div_two]
  refine Real.arccos_le_arccos ?_
  rw [div_le_iff₀ (by norm_num)]
  linarith

/-- Where the elbow would have to bend beyond its range, it stops at its limit. -/
theorem tip_stretched_clamp {p : Spot ℝ} (h : 5 * Real.pi / 6 ≤ straightBend p) :
    (stretched p).clamp.tip.point =
      direction (Scalar.radians (Joint.shoulder.clamp (stretched p).shoulder)) * foldedLinks := by
  have helbow : Scalar.radians (Joint.elbow.clamp (stretched p).elbow) = 5 * Real.pi / 6 := by
    rw [Joint.clamp_of_limit_le, Joint.radians_elbow_limit]
    rw [← Scalar.radians_le_radians, Joint.radians_elbow_limit, stretched_real]
    exact h.trans_eq (Scalar.radians_degrees _).symm
  have hwrist : (stretched p).clamp.wrist = 0 := by
    unfold Planar.clamp
    rw [wrist_stretched, Joint.clamp_of_within (Joint.within_zero_real .wrist)]
  rw [Planar.tip_of_straight hwrist]
  unfold Planar.clamp foldedLinks
  rw [helbow]

/-! ### A hand that points back -/

theorem wrap_add_360 (x : ℝ) : wrap (x + 360) = wrap x := by
  have hturn : (x + 360 + 180) / 360 = (x + 180) / 360 + 1 := by ring
  rw [wrap_real, wrap_real, hturn, Int.floor_add_one]
  push_cast
  ring

/-- A full turn of the hand makes no difference. -/
theorem limited_handAt_add_two_pi (p : Spot ℝ) (bend hand : ℝ) :
    limited (handAt p bend (hand + 2 * Real.pi)) = limited (handAt p bend hand) := by
  have hwrist : wristOf p (hand + 2 * Real.pi) = wristOf p hand := by
    simp [wristOf]
  have hturn (s : ℝ) : Scalar.degrees (hand + 2 * Real.pi - s - bend) =
      Scalar.degrees (hand - s - bend) + 360 := by
    rw [Scalar.degrees_real, Scalar.degrees_real]
    field_simp
    ring
  unfold limited handAt
  rw [hwrist]
  simp only [Planar.ofRadians, hturn, wrap_add_360]

/-- A position right below the pivot. -/
structure Below (p : Spot ℝ) : Prop where
  ahead : 0 ≤ p.reach
  near : p.reach ≤ 0.06
  low : -0.61 ≤ p.height
  high : p.height ≤ -0.59

/-- The direction of a hand that points back and down. -/
noncomputable def backHand : ℝ := 4 * Real.pi / 3

/-- The bend of the elbow that brings the tip to a position, with the hand pointing back. -/
noncomputable def backBend (p : Spot ℝ) : ℝ := Real.arccos (handCosine p backHand)

/-- The angle of the shoulder that goes with it. -/
noncomputable def backShoulder (p : Spot ℝ) : ℝ :=
  shoulderAngle (wristOf p backHand) (backBend p) 0.8 0.7

section Below

variable {p : Spot ℝ}

theorem direction_backHand : direction backHand = ⟨-(1 / 2), -(√3 / 2)⟩ := by
  have hturn : backHand = Real.pi / 3 + Real.pi := by
    unfold backHand
    ring
  apply Complex.ext
  · rw [direction_re, hturn, Real.cos_add_pi, Real.cos_pi_div_three]
  · rw [direction_im, hturn, Real.sin_add_pi, Real.sin_pi_div_three]

theorem wristOf_backHand (p : Spot ℝ) :
    (wristOf p backHand).point = ⟨p.height + 0.225, p.reach + 0.225 * √3⟩ := by
  rw [wristOf_point, direction_backHand]
  apply Complex.ext
  · simp [Spot.point]
    ring
  · simp [Spot.point]
    ring

namespace Below

theorem handCosine_bounds (hp : Below p) :
    -0.76 ≤ handCosine p backHand ∧ handCosine p backHand ≤ -0.69 := by
  obtain ⟨hr, hr', hh, hh'⟩ := hp
  obtain ⟨hsqrt, hsqrt'⟩ := sqrt_three_bounds
  rw [handCosine_eq, wristOf_backHand, Complex.sq_norm, Complex.normSq_apply]
  dsimp only
  rw [le_div_iff₀ (by norm_num), div_le_iff₀ (by norm_num)]
  constructor <;> nlinarith

theorem cos_backBend (hp : Below p) : Real.cos (backBend p) = handCosine p backHand := by
  obtain ⟨hlower, hupper⟩ := hp.handCosine_bounds
  exact Real.cos_arccos (by linarith) (by linarith)

theorem sin_backBend_bounds (hp : Below p) :
    0.64 ≤ Real.sin (backBend p) ∧ Real.sin (backBend p) ≤ 0.73 := by
  obtain ⟨hlower, hupper⟩ := hp.handCosine_bounds
  have hnonneg := Real.sin_nonneg_of_nonneg_of_le_pi (Real.arccos_nonneg _)
    (Real.arccos_le_pi (handCosine p backHand))
  have hsq := Real.sin_sq_add_cos_sq (backBend p)
  rw [hp.cos_backBend] at hsq
  change 0 ≤ Real.sin (backBend p) at hnonneg
  constructor <;> nlinarith

/-- The elbow is within its range. -/
theorem backBend_bounds (hp : Below p) :
    2 * Real.pi / 3 ≤ backBend p ∧ backBend p ≤ 5 * Real.pi / 6 := by
  obtain ⟨hlower, hupper⟩ := hp.handCosine_bounds
  have hpi := Real.pi_pos
  obtain ⟨hsqrt, -⟩ := sqrt_three_bounds
  have hthird : Real.arccos (-(1 / 2)) = 2 * Real.pi / 3 := by
    rw [Real.arccos_neg, ← Real.cos_pi_div_three, Real.arccos_cos (by positivity) (by linarith)]
    ring
  constructor
  · rw [← hthird]
    exact Real.arccos_le_arccos (by linarith)
  · rw [← arccos_neg_sqrt_three_div_two]
    exact Real.arccos_le_arccos (by linarith)

theorem backShoulder_mem (hp : Below p) : 0 ≤ backShoulder p ∧ backShoulder p ≤ Real.pi := by
  obtain ⟨hcos, hcos'⟩ := hp.handCosine_bounds
  obtain ⟨hsin, -⟩ := hp.sin_backBend_bounds
  obtain ⟨hlinks, hlinks'⟩ : 0 ≤ ((0.8 : ℝ) + (0.7 : ℝ) * direction (backBend p) : ℂ).arg ∧
      ((0.8 : ℝ) + (0.7 : ℝ) * direction (backBend p) : ℂ).arg ≤ Real.pi / 2 := by
    refine arg_mem_Icc_of_nonneg ?_ ?_
    · simp [hp.cos_backBend]
      linarith
    · simp
      linarith
  obtain ⟨hwrist, hwrist'⟩ : Real.pi / 2 < (wristOf p backHand).point.arg ∧
      (wristOf p backHand).point.arg ≤ Real.pi := by
    rw [wristOf_backHand]
    refine arg_mem_Ioc_of_neg ?_ ?_
    · linarith [hp.high]
    · have := hp.ahead
      positivity
  unfold backShoulder
  rw [shoulderAngle_real]
  constructor <;> linarith

/-- The upper arm points as far up as the wrist, seen from the end of the upper arm, is down. -/
theorem cos_backShoulder_mul (hp : Below p) :
    Real.cos (backShoulder p) * (1.13 + 1.12 * handCosine p backHand) =
      (p.height + 0.225) * (0.8 + 0.7 * handCosine p backHand) +
        (p.reach + 0.225 * √3) * (0.7 * Real.sin (backBend p)) := by
  have hlinks := wristPoint_handAt hp.cos_backBend
  simp only [Planar.wristPoint, handAt, Planar.ofRadians, Scalar.radians_degrees] at hlinks
  change 0.8 * direction (backShoulder p) + 0.7 * direction (backShoulder p + backBend p) = _
    at hlinks
  rw [wristOf_backHand] at hlinks
  have hre := congrArg Complex.re hlinks
  have him := congrArg Complex.im hlinks
  simp [Real.cos_add, Real.sin_add] at hre him
  rw [← hre, ← him, ← hp.cos_backBend]
  linear_combination -0.49 * Real.cos (backShoulder p) * Real.sin_sq_add_cos_sq (backBend p)

theorem cos_backShoulder_bounds (hp : Below p) :
    0 < Real.cos (backShoulder p) ∧ Real.cos (backShoulder p) ≤ 0.86 := by
  have hmul := hp.cos_backShoulder_mul
  obtain ⟨hcos, hcos'⟩ := hp.handCosine_bounds
  obtain ⟨hsin, hsin'⟩ := hp.sin_backBend_bounds
  obtain ⟨hsqrt, hsqrt'⟩ := sqrt_three_bounds
  obtain ⟨hr, hr', hh, hh'⟩ := hp
  set c := handCosine p backHand
  set d := Real.sin (backBend p)
  have hdown : -0.385 * 0.317 ≤ (p.height + 0.225) * (0.8 + 0.7 * c) := by nlinarith
  have hdown' : (p.height + 0.225) * (0.8 + 0.7 * c) ≤ 0 :=
    mul_nonpos_of_nonpos_of_nonneg (by linarith) (by linarith)
  have hside : 0.389 * 0.448 ≤ (p.reach + 0.225 * √3) * (0.7 * d) :=
    mul_le_mul (by linarith) (by linarith) (by norm_num) (by linarith)
  have hside' : (p.reach + 0.225 * √3) * (0.7 * d) ≤ 0.45 * 0.511 :=
    mul_le_mul (by linarith) (by linarith) (by linarith) (by norm_num)
  have hpos : 0 < 1.13 + 1.12 * c := by linarith
  constructor
  · refine pos_of_mul_pos_left ?_ hpos.le
    linarith
  · rw [← mul_le_mul_iff_left₀ hpos]
    linarith

theorem backShoulder_bounds (hp : Below p) :
    Real.pi / 6 ≤ backShoulder p ∧ backShoulder p ≤ Real.pi / 2 := by
  obtain ⟨hpos, hle⟩ := hp.cos_backShoulder_bounds
  obtain ⟨hnonneg, hpi⟩ := hp.backShoulder_mem
  obtain ⟨hsqrt, -⟩ := sqrt_three_bounds
  constructor
  · by_contra hlt
    have hcos := Real.cos_le_cos_of_nonneg_of_le_pi hnonneg (by linarith [Real.pi_pos])
      (not_le.mp hlt).le
    rw [Real.cos_pi_div_six] at hcos
    linarith
  · by_contra hlt
    have hneg := Real.cos_neg_of_pi_div_two_lt_of_lt (not_le.mp hlt) (by linarith [Real.pi_pos])
    linarith

/-- Right below the pivot positions are reached with the hand pointing back and down. -/
theorem within_handAt (hp : Below p) :
    (handAt p (backBend p) backHand).within = true ∧
      (handAt p (backBend p) backHand).tip.point = p.point := by
  obtain ⟨hs, hs'⟩ := hp.backShoulder_bounds
  obtain ⟨he, he'⟩ := hp.backBend_bounds
  have hpi := Real.pi_pos
  have hshoulder : shoulderAngle (wristOf p backHand) (backBend p) 0.8 0.7 = backShoulder p := rfl
  have hhand : backHand = 4 * Real.pi / 3 := rfl
  refine ⟨?_, tip_handAt hp.cos_backBend⟩
  rw [Planar.within_iff]
  simp only [Joint.within_iff_abs_radians_le, handAt, Planar.ofRadians, Scalar.radians_degrees,
    hshoulder, Joint.radians_shoulder_limit, Joint.radians_elbow_limit, Joint.radians_wrist_limit]
  refine ⟨abs_le.mpr ⟨?_, hs'⟩, abs_le.mpr ⟨?_, he'⟩, abs_le.mpr ⟨?_, ?_⟩⟩ <;> linarith

/-- A sweep finds the angles for a hand that points back and down, or better ones. -/
theorem exists_swept? (hp : Below p) :
    ∃ found, swept? p = some found ∧ found.within = true ∧ found.tip.point = p.point := by
  obtain ⟨hwithin, htip⟩ := hp.within_handAt
  have hmem : (-120 : ℝ) ∈ coarseHands := by
    have h := mem_coarseHands (i := 600) (by norm_num)
    norm_num at h
    exact h
  obtain ⟨found, hfound, hfoundWithin, hle⟩ := exists_swept?_of_mem p hmem (.inl rfl)
  have hturn : backHand = Scalar.radians (-120 : ℝ) + 2 * Real.pi := by
    unfold backHand
    rw [Scalar.radians_real]
    ring
  have hcosine : handCosine p backHand = handCosine p (Scalar.radians (-120)) := by
    rw [hturn]
    simp [handCosine, wristOf]
  have hhanded : handed p 1 (Scalar.radians (-120)) = handAt p (backBend p) backHand := by
    rw [handed_real, one_mul, ← limited_handAt_add_two_pi, ← hturn, ← hcosine]
    exact limited_of_within hwithin
  rw [hhanded, Spot.distance_eq_norm, Spot.distance_eq_norm, htip, sub_self, norm_zero] at hle
  exact ⟨found, hfound, hfoundWithin, sub_eq_zero.mp (norm_le_zero_iff.mp hle)⟩

/-- There the tip comes right to a position that a straight wrist misses by more than the
tolerance. -/
theorem exists_planarFor? (hp : Below p) (hnorm : ‖p.point‖ ^ 2 ≤ 0.3568) :
    ∃ found, planarFor? p (.real 0.01) = .ok found ∧ found.within = true ∧ found.tip = p := by
  obtain ⟨found, hfound, hwithin, htip⟩ := hp.exists_swept?
  obtain ⟨-, hsqrt⟩ := sqrt_three_bounds
  have hlevel : level? p = none := level?_eq_none (by linarith [hp.near]) (by linarith [hp.high])
  have hshort : 0.01 < (stretched p).clamp.tip.distance p := by
    have hp : ‖p.point‖ ≤ 0.59733 := le_of_sq_le_sq (by linarith) (by norm_num)
    have hstop : 0.6074 ≤ ‖(stretched p).clamp.tip.point‖ := by
      rw [tip_stretched_clamp (le_straightBend (by linarith)), norm_mul, norm_direction, one_mul]
      refine le_of_sq_le_sq ?_ (norm_nonneg _)
      rw [sq_norm_foldedLinks]
      linarith
    rw [Spot.distance_eq_norm]
    linarith [norm_sub_norm_le (stretched p).clamp.tip.point p.point]
  refine ⟨found, ?_, hwithin, Spot.point_injective htip⟩
  rw [planarFor?_real, hlevel, Option.getD_none, if_pos hshort, hfound, Option.getD_some]

end Below

end Below

/-! ### Short by the tolerance -/

/-- What the elbow of a straight wrist bends beyond its limit, where the tip stops short by the
tolerance. -/
noncomputable def excess : ℝ := Real.arccos (26449 / 26450)

theorem cos_excess : Real.cos excess = 26449 / 26450 :=
  Real.cos_arccos (by norm_num) (by norm_num)

theorem excess_nonneg : 0 ≤ excess := Real.arccos_nonneg _

theorem excess_le : excess ≤ Real.pi / 6 := by
  obtain ⟨-, hsqrt⟩ := sqrt_three_bounds
  unfold excess
  rw [← Real.arccos_cos (x := Real.pi / 6) (by positivity) (by linarith [Real.pi_pos]),
    Real.cos_pi_div_six]
  exact Real.arccos_le_arccos (by linarith)

/-- The arm with a straight wrist and the elbow beyond its limit. -/
noncomputable def beyondLinks : ℂ := (0.8 : ℝ) + (1.15 : ℝ) * direction (5 * Real.pi / 6 + excess)

theorem norm_foldedLinks_sub_beyondLinks : ‖foldedLinks - beyondLinks‖ = 0.01 := by
  have hsq : ‖direction (5 * Real.pi / 6) - direction (5 * Real.pi / 6 + excess)‖ ^ 2 =
      (1 / 115) ^ 2 := by
    rw [sq_norm_direction_sub, sub_add_cancel_left, Real.cos_neg, cos_excess]
    norm_num
  have hchord := (sq_eq_sq₀ (norm_nonneg _) (by norm_num)).mp hsq
  unfold foldedLinks beyondLinks
  rw [add_sub_add_left_eq_sub, ← mul_sub, norm_link_sub (by norm_num), hchord]
  norm_num

theorem foldedLinks_eq : foldedLinks = ⟨0.8 - 0.575 * √3, 0.575⟩ := by
  apply Complex.ext
  · simp [foldedLinks, cos_five_pi_div_six]
    ring
  · simp [foldedLinks, sin_five_pi_div_six]
    norm_num

theorem beyondLinks_bounds :
    (-0.2009 ≤ beyondLinks.re ∧ beyondLinks.re ≤ -0.20088) ∧
      0.5663 ≤ beyondLinks.im ∧ beyondLinks.im ≤ 0.56633 := by
  obtain ⟨hsqrt, hsqrt'⟩ := sqrt_three_bounds
  have hsin := Real.sin_sq_add_cos_sq excess
  rw [cos_excess] at hsin
  have hnonneg : 0 ≤ Real.sin excess :=
    Real.sin_nonneg_of_nonneg_of_le_pi excess_nonneg (Real.arccos_le_pi _)
  have hlower : 0.00869 ≤ Real.sin excess := le_of_sq_le_sq (by linarith) hnonneg
  have hupper : Real.sin excess ≤ 0.0087 := le_of_sq_le_sq (by linarith) (by norm_num)
  have hre : beyondLinks.re = 0.8 + 1.15 * Real.cos (5 * Real.pi / 6 + excess) := by
    simp [beyondLinks]
  have him : beyondLinks.im = 1.15 * Real.sin (5 * Real.pi / 6 + excess) := by
    simp [beyondLinks]
  rw [hre, him, Real.sin_add, Real.cos_add, sin_five_pi_div_six, cos_five_pi_div_six, cos_excess]
  refine ⟨⟨?_, ?_⟩, ?_, ?_⟩ <;> nlinarith

theorem sq_norm_beyondLinks_bounds : 0.361 ≤ ‖beyondLinks‖ ^ 2 ∧ ‖beyondLinks‖ ^ 2 ≤ 0.3611 := by
  obtain ⟨⟨hre, hre'⟩, him, him'⟩ := beyondLinks_bounds
  rw [Complex.sq_norm, Complex.normSq_apply]
  constructor <;> nlinarith

/-- The position below the pivot, so far ahead of it, that the straight wrist stops short of by the
tolerance. -/
noncomputable def edge (reach : ℝ) : Spot ℝ := ⟨reach, -√(‖beyondLinks‖ ^ 2 - reach ^ 2)⟩

/-- How the tip moves from a position to where it stops short of it, as a factor. -/
noncomputable def shortening : ℂ := foldedLinks / beyondLinks

/-- Where it stops. -/
noncomputable def stop (reach : ℝ) : Spot ℝ :=
  ⟨((edge reach).point * shortening).im, ((edge reach).point * shortening).re⟩

theorem beyondLinks_ne_zero : beyondLinks ≠ 0 := fun h => by
  have hnorm := sq_norm_beyondLinks_bounds.1
  rw [h, norm_zero] at hnorm
  norm_num at hnorm

theorem shortening_bounds :
    (1.0105 ≤ shortening.re ∧ shortening.re ≤ 1.0114) ∧
      -0.01275 ≤ shortening.im ∧ shortening.im ≤ -0.01246 := by
  obtain ⟨hsqrt, hsqrt'⟩ := sqrt_three_bounds
  obtain ⟨⟨hre, hre'⟩, him, him'⟩ := beyondLinks_bounds
  obtain ⟨hn, hn'⟩ := sq_norm_beyondLinks_bounds
  have hpos : 0 < ‖beyondLinks‖ ^ 2 := by linarith
  rw [shortening, Complex.div_re, Complex.div_im, ← add_div, ← sub_div, foldedLinks_eq,
    Complex.normSq_eq_norm_sq, le_div_iff₀ hpos, div_le_iff₀ hpos, le_div_iff₀ hpos,
    div_le_iff₀ hpos]
  dsimp only
  refine ⟨⟨?_, ?_⟩, ?_, ?_⟩ <;> nlinarith

section Edge

variable {r : ℝ}

theorem sq_norm_edge (hr : |r| ≤ 0.02) : ‖(edge r).point‖ ^ 2 = ‖beyondLinks‖ ^ 2 := by
  have hsq : r ^ 2 ≤ 0.02 ^ 2 := sq_le_sq' (abs_le.mp hr).1 (abs_le.mp hr).2
  have hsqrt : 0 ≤ ‖beyondLinks‖ ^ 2 - r ^ 2 := by linarith [sq_norm_beyondLinks_bounds.1]
  rw [Spot.sq_norm_point]
  unfold edge
  dsimp only
  rw [neg_sq, Real.sq_sqrt hsqrt, sub_add_cancel]

theorem norm_edge (hr : |r| ≤ 0.02) : ‖(edge r).point‖ = ‖beyondLinks‖ :=
  (sq_eq_sq₀ (norm_nonneg _) (norm_nonneg _)).mp (sq_norm_edge hr)

theorem stop_point (r : ℝ) : (stop r).point = (edge r).point * shortening := rfl

theorem distance_stop_edge (hr : |r| ≤ 0.02) : (stop r).distance (edge r) = 0.01 := by
  have hfactor : (stop r).point - (edge r).point =
      (edge r).point * ((foldedLinks - beyondLinks) / beyondLinks) := by
    rw [stop_point, shortening, sub_div, div_self beyondLinks_ne_zero]
    ring
  rw [Spot.distance_eq_norm, hfactor, norm_mul, norm_div, norm_edge hr,
    norm_foldedLinks_sub_beyondLinks]
  exact mul_div_cancel₀ _ (norm_ne_zero_iff.mpr beyondLinks_ne_zero)

theorem edge_height_bounds (hr : |r| ≤ 0.02) :
    -0.60092 ≤ (edge r).height ∧ (edge r).height ≤ -0.6004 := by
  have hsq := sq_norm_edge hr
  obtain ⟨hn, hn'⟩ := sq_norm_beyondLinks_bounds
  have hr2 : r ^ 2 ≤ 0.02 ^ 2 := sq_le_sq' (abs_le.mp hr).1 (abs_le.mp hr).2
  have hneg : (edge r).height ≤ 0 := neg_nonpos.mpr (Real.sqrt_nonneg _)
  have hreach : (edge r).reach = r := rfl
  rw [Spot.sq_norm_point, hreach] at hsq
  constructor <;> nlinarith

/-- The tip stops a little farther ahead and a little lower. -/
theorem stop_bounds (hr : 0 ≤ r) (hr' : r ≤ 0.02) :
    (r + 0.007 ≤ (stop r).reach ∧ (stop r).reach ≤ r + 0.0083) ∧
      -0.6089 ≤ (stop r).height ∧ (stop r).height ≤ -0.6054 := by
  obtain ⟨hh, hh'⟩ := edge_height_bounds (abs_le.mpr ⟨by linarith, hr'⟩ : |r| ≤ 0.02)
  obtain ⟨⟨hre, hre'⟩, him, him'⟩ := shortening_bounds
  have hreach : (stop r).reach = (edge r).height * shortening.im + r * shortening.re := rfl
  have hheight : (stop r).height = (edge r).height * shortening.re - r * shortening.im := rfl
  rw [hreach, hheight]
  refine ⟨⟨?_, ?_⟩, ?_, ?_⟩ <;> nlinarith

theorem straightBend_edge (hr : |r| ≤ 0.02) : straightBend (edge r) = 5 * Real.pi / 6 + excess := by
  have hcos : bendCosine ‖(edge r).point‖ 0.8 1.15 = Real.cos (5 * Real.pi / 6 + excess) := by
    rw [bendCosine_real, sq_norm_edge hr, beyondLinks, sq_norm_links]
    field_simp
    ring
  unfold straightBend
  rw [hcos]
  exact Real.arccos_cos (by linarith [Real.pi_pos, excess_nonneg]) (by linarith [excess_le])

theorem radians_stretched_edge_shoulder (hr : |r| ≤ 0.02) :
    Scalar.radians (stretched (edge r)).shoulder = (edge r).point.arg - beyondLinks.arg := by
  have hlinks : straightLinks (edge r) = beyondLinks := by
    unfold straightLinks beyondLinks
    rw [straightBend_edge hr]
  rw [stretched_real, shoulderAngle_real, Planar.ofRadians, Scalar.radians_degrees, ← hlinks]
  rfl

theorem within_stretched_edge_shoulder (hr : 0 ≤ r) (hr' : r ≤ 0.02) :
    Joint.shoulder.within (stretched (edge r)).shoulder = true := by
  have habs : |r| ≤ 0.02 := abs_le.mpr ⟨by linarith, hr'⟩
  obtain ⟨-, hh⟩ := edge_height_bounds habs
  obtain ⟨⟨-, hre⟩, him, -⟩ := beyondLinks_bounds
  have hre' : (edge r).point.re < 0 := hh.trans_lt (by norm_num)
  have hedge := arg_mem_Ioc_of_neg hre' hr
  have hbeyond := arg_mem_Ioc_of_neg (z := beyondLinks) (by linarith) (by linarith)
  rw [Joint.within_iff_abs_radians_le, radians_stretched_edge_shoulder habs,
    Joint.radians_shoulder_limit, abs_le]
  constructor <;> linarith [hedge.1, hedge.2, hbeyond.1, hbeyond.2]

theorem tip_stretched_edge_clamp (hr : 0 ≤ r) (hr' : r ≤ 0.02) :
    (stretched (edge r)).clamp.tip = stop r := by
  have habs : |r| ≤ 0.02 := abs_le.mpr ⟨by linarith, hr'⟩
  have hturn : direction ((edge r).point.arg - beyondLinks.arg) = (edge r).point / beyondLinks :=
    eq_div_of_mul_eq beyondLinks_ne_zero (direction_arg_sub_mul (norm_edge habs).symm)
  apply Spot.point_injective
  rw [tip_stretched_clamp (by rw [straightBend_edge habs]; linarith [excess_nonneg]),
    Joint.clamp_of_within (within_stretched_edge_shoulder hr hr'),
    radians_stretched_edge_shoulder habs, hturn, stop_point]
  unfold shortening
  ring

/-- A straight wrist is where the plane of the arm stops. -/
theorem exists_planarFor?_edge (hr : 0 ≤ r) (hr' : r ≤ 0.02) :
    ∃ found, planarFor? (edge r) (.real 0.01) = .ok found ∧ found.within = true ∧
      found.tip = stop r := by
  have habs : |r| ≤ 0.02 := abs_le.mpr ⟨by linarith, hr'⟩
  obtain ⟨-, hh⟩ := edge_height_bounds habs
  have hreach : (edge r).reach = r := rfl
  refine ⟨(stretched (edge r)).clamp, ?_, Planar.within_clamp _, tip_stretched_edge_clamp hr hr'⟩
  rw [planarFor?_real, level?_eq_none (by linarith) (by linarith), Option.getD_none,
    tip_stretched_edge_clamp hr hr', distance_stop_edge habs, if_neg (lt_irrefl _)]

end Edge

end ArmRover.Arm
