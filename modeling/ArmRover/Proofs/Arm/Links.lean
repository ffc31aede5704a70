import ArmRover.Proofs.Arm.Directions

/-!
# Two links

Two links with the right bend between them reach any position as far away as they span, and so the
tip comes to where it is wanted, unless a joint has to be brought into its range.

* `Arm.norm_links` — the span of two links, `Arm.links_point` — where they end.
* `Arm.handAt` — the angles that hold the hand in a direction, before they are brought into their
  ranges, and `Arm.tip_handAt` — the tip with them.
* `Arm.tip_level?`, `Arm.tip_stretched` — the tip with the hand held level, with the wrist straight.
-/

namespace ArmRover.Arm

open Complex (I)

variable {l1 l2 bend distance : ℝ}

/-! ### Bend and shoulder -/

theorem bendCosine_real (distance l1 l2 : ℝ) :
    bendCosine distance l1 l2 = (distance ^ 2 - l1 ^ 2 - l2 ^ 2) / (2 * l1 * l2) := by
  simp only [bendCosine, Scalar.div_real, Scalar.sub_real, Scalar.mul_real, Scalar.numeral_real]
  ring

theorem sq_norm_links (l1 l2 bend : ℝ) :
    ‖(l1 + l2 * direction bend : ℂ)‖ ^ 2 = l1 ^ 2 + l2 ^ 2 + 2 * l1 * l2 * Real.cos bend := by
  rw [Complex.sq_norm, Complex.normSq_apply]
  simp
  linear_combination l2 ^ 2 * Real.sin_sq_add_cos_sq bend

/-- The distance from a point to the end of a link. -/
theorem sq_norm_sub_link (z : ℂ) (length θ : ℝ) :
    ‖z - length * direction θ‖ ^ 2 =
      ‖z‖ ^ 2 + length ^ 2 - 2 * length * ‖z‖ * Real.cos (z.arg - θ) := by
  have hturned : z - length * direction θ =
      direction θ * ((-length : ℝ) + (‖z‖ : ℝ) * direction (z.arg - θ)) := by
    have hz : z = ‖z‖ * (direction θ * direction (z.arg - θ)) := by
      rw [← direction_add, add_sub_cancel, norm_mul_direction_arg]
    nth_rewrite 1 [hz]
    push_cast
    ring
  rw [hturned, norm_mul, norm_direction, one_mul, sq_norm_links]
  ring

/-- The law of cosines: the links span the distance if the bend has the cosine for it. -/
theorem norm_links (hl1 : 0 < l1) (hl2 : 0 < l2) (hdistance : 0 ≤ distance)
    (hbend : Real.cos bend = bendCosine distance l1 l2) :
    ‖(l1 + l2 * direction bend : ℂ)‖ = distance := by
  refine (sq_eq_sq₀ (norm_nonneg _) hdistance).mp ?_
  rw [sq_norm_links, hbend, bendCosine_real]
  field_simp
  ring

/-- Two links span a distance as far as they can: not less than folded, not more than stretched. -/
theorem norm_links_arccos (hl1 : 0 < l1) (hl2 : 0 < l2) (hdistance : 0 ≤ distance) :
    ‖(l1 + l2 * direction (Real.arccos (bendCosine distance l1 l2)) : ℂ)‖ =
      min (max distance |l1 - l2|) (l1 + l2) := by
  have hproduct : 0 < 2 * l1 * l2 := by positivity
  have hfolded : |l1 - l2| ≤ l1 + l2 := abs_le.mpr ⟨by linarith, by linarith⟩
  have hsq := sq_abs (l1 - l2)
  rcases le_total distance |l1 - l2| with hnear | hnear
  · have hcosine : bendCosine distance l1 l2 ≤ -1 := by
      rw [bendCosine_real, div_le_iff₀ hproduct]
      nlinarith
    rw [Real.arccos_of_le_neg_one hcosine, direction_pi, max_eq_right hnear, min_eq_left hfolded,
      mul_neg_one, ← sub_eq_add_neg, ← Complex.ofReal_sub, Complex.norm_real, Real.norm_eq_abs]
  · rw [max_eq_left hnear]
    rcases le_total distance (l1 + l2) with hfar | hfar
    · rw [min_eq_left hfar]
      refine norm_links hl1 hl2 hdistance (Real.cos_arccos ?_ ?_)
      · rw [bendCosine_real, le_div_iff₀ hproduct]
        nlinarith [abs_nonneg (l1 - l2)]
      · rw [bendCosine_real, div_le_iff₀ hproduct]
        nlinarith
    · have hcosine : 1 ≤ bendCosine distance l1 l2 := by
        rw [bendCosine_real, le_div_iff₀ hproduct]
        nlinarith
      rw [Real.arccos_of_one_le hcosine, direction_zero, min_eq_right hfar, mul_one,
        ← Complex.ofReal_add, Complex.norm_real, Real.norm_of_nonneg (by positivity)]

theorem shoulderAngle_real (p : Spot ℝ) (bend l1 l2 : ℝ) :
    shoulderAngle p bend l1 l2 = p.point.arg - (l1 + l2 * direction bend : ℂ).arg := by
  have hlinks : (⟨l1 + l2 * Real.cos bend, l2 * Real.sin bend⟩ : ℂ) = l1 + l2 * direction bend := by
    apply Complex.ext <;> simp
  rw [← hlinks]
  rfl

/-- The shoulder angle turns two links to a position, whatever they span. -/
theorem links_direction (p : Spot ℝ) (bend l1 l2 : ℝ) :
    l1 * direction (shoulderAngle p bend l1 l2) +
      l2 * direction (shoulderAngle p bend l1 l2 + bend) =
        ‖(l1 + l2 * direction bend : ℂ)‖ * direction p.point.arg := by
  rw [shoulderAngle_real, direction_add, ← direction_sub_arg_mul]
  ring

/-- Two links that span the distance of a position end there, turned by the shoulder angle. -/
theorem links_point {p : Spot ℝ} (h : ‖(l1 + l2 * direction bend : ℂ)‖ = ‖p.point‖) :
    l1 * direction (shoulderAngle p bend l1 l2) +
      l2 * direction (shoulderAngle p bend l1 l2 + bend) = p.point := by
  rw [links_direction, h, norm_mul_direction_arg]

/-! ### Ends that are close -/

/-- Two pairs of links that end close to each other have first links in directions that are close,
unless both pairs are nearly straight or folded. -/
theorem mul_norm_direction_sub_le (a a' b b' : ℝ) (hl1 : 0 ≤ l1) :
    l1 * ‖direction a - direction a'‖ * |Real.sin ((b + b' - (a + a')) / 2)| ≤
      ‖l1 * (direction a - direction a') + l2 * (direction b - direction b')‖ := by
  -- Seen from the mean direction of the second links, their ends are equally far ahead.
  have hturned : direction (-((b + b') / 2)) *
        (l1 * (direction a - direction a') + l2 * (direction b - direction b')) =
      l1 * (direction (a - (b + b') / 2) - direction (a' - (b + b') / 2)) +
        l2 * (direction ((b - b') / 2) - direction (-((b - b') / 2))) := by
    have hb : (b - b') / 2 = b - (b + b') / 2 := by ring
    have hb' : -((b - b') / 2) = b' - (b + b') / 2 := by ring
    rw [hb', hb]
    simp only [sub_eq_add_neg _ ((b + b') / 2), direction_add]
    ring
  have hahead : (direction (-((b + b') / 2)) *
        (l1 * (direction a - direction a') + l2 * (direction b - direction b'))).re =
      l1 * (Real.cos (a - (b + b') / 2) - Real.cos (a' - (b + b') / 2)) := by
    rw [hturned]
    simp
  have hcos : Real.cos (a - (b + b') / 2) - Real.cos (a' - (b + b') / 2) =
      2 * Real.sin ((a - a') / 2) * Real.sin ((b + b' - (a + a')) / 2) := by
    have hsum : (a - (b + b') / 2 + (a' - (b + b') / 2)) / 2 = -((b + b' - (a + a')) / 2) := by ring
    rw [Real.cos_sub_cos, hsum, Real.sin_neg, sub_sub_sub_cancel_right]
    ring
  calc
    l1 * ‖direction a - direction a'‖ * |Real.sin ((b + b' - (a + a')) / 2)|
        = |(direction (-((b + b') / 2)) *
            (l1 * (direction a - direction a') + l2 * (direction b - direction b'))).re| := by
          rw [hahead, hcos, norm_direction_sub, abs_mul l1,
            abs_mul (2 * Real.sin ((a - a') / 2)), abs_of_nonneg hl1, mul_assoc]
    _ ≤ ‖direction (-((b + b') / 2)) *
            (l1 * (direction a - direction a') + l2 * (direction b - direction b'))‖ :=
          Complex.abs_re_le_norm _
    _ = ‖l1 * (direction a - direction a') + l2 * (direction b - direction b')‖ := by
          rw [norm_mul, norm_direction, one_mul]

/-! ### The tip -/

theorem tip_ofRadians (shoulder elbow wrist : ℝ) :
    (Planar.ofRadians shoulder elbow wrist).tip.point =
      0.8 * direction shoulder + 0.7 * direction (shoulder + elbow) +
        0.45 * direction (shoulder + elbow + wrist) := by
  rw [Planar.tip_point]
  simp only [Planar.wristPoint, Planar.handAngle, Planar.ofRadians, Scalar.radians_degrees]

theorem upperArm_real : (upperArm : ℝ) = 0.8 := by
  norm_num [upperArm]

theorem forearm_real : (forearm : ℝ) = 0.7 := by
  norm_num [forearm]

theorem handSpan_real : (handSpan : ℝ) = 0.45 := by
  norm_num [handSpan, palm, fingers]

theorem fullReach_real : (fullReach : ℝ) = 1.95 := by
  norm_num [fullReach, upperArm, forearm, palm, fingers]

/-- Where the wrist is, for a tip and the direction of the hand. -/
noncomputable def wristOf (p : Spot ℝ) (hand : ℝ) : Spot ℝ :=
  ⟨p.reach - 0.45 * Real.sin hand, p.height - 0.45 * Real.cos hand⟩

theorem wristOf_point (p : Spot ℝ) (hand : ℝ) :
    (wristOf p hand).point = p.point - 0.45 * direction hand := by
  apply Complex.ext <;> simp [wristOf, Spot.point]

/-- The wrist is where the hand leaves it. -/
theorem wristOf_tip (p : Planar ℝ) : (wristOf p.tip p.handAngle).point = p.wristPoint := by
  rw [wristOf_point, Planar.tip_point, add_sub_cancel_right]

/-- The wrist is at the end of two links that the shoulder turns. -/
theorem wristPoint_eq_mul (p : Planar ℝ) :
    p.wristPoint = direction (Scalar.radians p.shoulder) *
      ((0.8 : ℝ) + (0.7 : ℝ) * direction (Scalar.radians p.elbow)) := by
  unfold Planar.wristPoint
  rw [direction_add]
  push_cast
  ring

/-- The angles that hold the hand in a direction, for a given bend of the elbow. -/
noncomputable def handAt (p : Spot ℝ) (bend hand : ℝ) : Planar ℝ :=
  let shoulder := shoulderAngle (wristOf p hand) bend 0.8 0.7
  Planar.ofRadians shoulder bend (hand - shoulder - bend)

theorem handAngle_handAt (p : Spot ℝ) (bend hand : ℝ) : (handAt p bend hand).handAngle = hand := by
  simp only [handAt, Planar.handAngle, Planar.ofRadians, Scalar.radians_degrees]
  ring

/-- If the bend has the cosine for its distance, the wrist is where it has to be. -/
theorem wristPoint_handAt {p : Spot ℝ} {bend hand : ℝ}
    (hbend : Real.cos bend = bendCosine ‖(wristOf p hand).point‖ 0.8 0.7) :
    (handAt p bend hand).wristPoint = (wristOf p hand).point := by
  have hlinks := links_point (norm_links (by norm_num) (by norm_num) (norm_nonneg _) hbend)
  push_cast at hlinks
  simpa only [handAt, Planar.wristPoint, Planar.ofRadians, Scalar.radians_degrees] using hlinks

/-- Then the tip is where it is wanted. -/
theorem tip_handAt {p : Spot ℝ} {bend hand : ℝ}
    (hbend : Real.cos bend = bendCosine ‖(wristOf p hand).point‖ 0.8 0.7) :
    (handAt p bend hand).tip.point = p.point := by
  rw [Planar.tip_point, wristPoint_handAt hbend, handAngle_handAt, wristOf_point, sub_add_cancel]

/-! ### With the hand level -/

/-- The cosine of the bend that brings the tip to a position, with the hand in a direction. -/
noncomputable def handCosine (p : Spot ℝ) (hand : ℝ) : ℝ :=
  bendCosine ‖(wristOf p hand).point‖ 0.8 0.7

theorem wristOf_half_pi (p : Spot ℝ) :
    wristOf p (Real.pi / 2) = ⟨p.reach - handSpan, p.height⟩ := by
  simp [wristOf, handSpan_real]

theorem levelWith_real (p : Spot ℝ) (bend : ℝ) :
    levelWith (wristOf p (Real.pi / 2)) bend = handAt p bend (Real.pi / 2) := by
  unfold handAt levelWith
  rw [upperArm_real, forearm_real]
  simp
  rfl

theorem level?_real (p : Spot ℝ) :
    level? p =
      if 1 < |handCosine p (Real.pi / 2)| then none
      else if (handAt p (Real.arccos (handCosine p (Real.pi / 2))) (Real.pi / 2)).within then
        some (handAt p (Real.arccos (handCosine p (Real.pi / 2))) (Real.pi / 2))
      else if (handAt p (-Real.arccos (handCosine p (Real.pi / 2))) (Real.pi / 2)).within then
        some (handAt p (-Real.arccos (handCosine p (Real.pi / 2))) (Real.pi / 2))
      else none := by
  unfold level? handCosine
  simp only [levelWith_real, Spot.hypot_eq_norm, ← wristOf_half_pi, upperArm_real, forearm_real,
    Scalar.abs_real, Scalar.lt_real, Scalar.one_real, Scalar.neg_real]
  rfl

/-- Angles for a level hand are those for a bend to one side or the other, within the limits. -/
theorem exists_bend_of_level? {p : Spot ℝ} {found : Planar ℝ} (h : level? p = some found) :
    ∃ bend, Real.cos bend = handCosine p (Real.pi / 2) ∧ found = handAt p bend (Real.pi / 2) ∧
      found.within = true := by
  rw [level?_real] at h
  split at h
  case isTrue => cases h
  case isFalse hcosine =>
    obtain ⟨hlower, hupper⟩ := abs_le.mp (not_lt.mp hcosine)
    have hup := Real.cos_arccos hlower hupper
    split at h
    case isTrue hwithin =>
      obtain rfl := Option.some.inj h
      exact ⟨_, hup, rfl, hwithin⟩
    case isFalse =>
      split at h
      case isTrue hwithin =>
        obtain rfl := Option.some.inj h
        exact ⟨_, (Real.cos_neg _).trans hup, rfl, hwithin⟩
      case isFalse => cases h

/-- With the hand held level the tip is where it is wanted, within the limits. -/
theorem tip_level? {p : Spot ℝ} {found : Planar ℝ} (h : level? p = some found) :
    found.tip.point = p.point ∧ found.within = true := by
  obtain ⟨bend, hbend, rfl, hwithin⟩ := exists_bend_of_level? h
  exact ⟨tip_handAt hbend, hwithin⟩

/-! ### With the wrist straight -/

/-- Outside its domain the inverse cosine is what it is at the nearest end. -/
theorem acos_clamp (x : ℝ) : Scalar.acos (Scalar.clamp x (-1) 1) = Real.arccos x := by
  show Real.arccos _ = _
  rw [Scalar.clamp_real]
  rcases le_total x (-1) with hlow | hlow
  · rw [max_eq_right hlow, min_eq_left (by norm_num), Real.arccos_neg_one,
      Real.arccos_of_le_neg_one hlow]
  · rw [max_eq_left hlow]
    rcases le_total x 1 with hhigh | hhigh
    · rw [min_eq_left hhigh]
    · rw [min_eq_right hhigh, Real.arccos_one, Real.arccos_of_one_le hhigh]

theorem elbowBend_real (distance l1 l2 : ℝ) :
    elbowBend distance l1 l2 = Real.arccos (bendCosine distance l1 l2) := by
  have hbound (c : ℝ) : Scalar.greater (-1) (Scalar.lesser 1 c) = Scalar.clamp c (-1) 1 := by
    rw [Scalar.greater_real, Scalar.lesser_real, Scalar.clamp_real, max_min_distrib_left,
      max_eq_right (by norm_num : (-1 : ℝ) ≤ 1), min_comm, max_comm]
  rw [← acos_clamp, ← hbound]
  unfold elbowBend
  simp only [Scalar.one_real, Scalar.neg_real]

theorem stretched_real (p : Spot ℝ) :
    stretched p =
      Planar.ofRadians (shoulderAngle p (Real.arccos (bendCosine ‖p.point‖ 0.8 1.15)) 0.8 1.15)
        (Real.arccos (bendCosine ‖p.point‖ 0.8 1.15)) 0 := by
  have hspan : (forearm + handSpan : ℝ) = 1.15 := by
    rw [forearm_real, handSpan_real]
    norm_num
  unfold stretched
  rw [hspan, upperArm_real]
  simp only [elbowBend_real, Spot.hypot_eq_norm, Scalar.zero_real]

theorem wrist_stretched (p : Spot ℝ) : (stretched p).wrist = 0 := by
  rw [stretched_real]
  simp [Planar.ofRadians, Scalar.degrees_real]

/-- With the wrist held straight the tip is in the direction of the position, as near to it as the
links extend. -/
theorem tip_stretched_eq (p : Spot ℝ) :
    (stretched p).tip.point = (min (max ‖p.point‖ 0.35) 1.95 : ℝ) * direction p.point.arg := by
  have hspan : ‖((0.8 : ℝ) + (1.15 : ℝ) *
      direction (Real.arccos (bendCosine ‖p.point‖ 0.8 1.15)) : ℂ)‖ =
        min (max ‖p.point‖ |0.8 - 1.15|) (0.8 + 1.15) :=
    norm_links_arccos (by norm_num) (by norm_num) (norm_nonneg _)
  have hshort : |(0.8 : ℝ) - 1.15| = 0.35 := by
    rw [abs_of_neg (by norm_num)]
    norm_num
  have hlong : (0.8 : ℝ) + 1.15 = 1.95 := by norm_num
  rw [hshort, hlong] at hspan
  rw [← hspan, ← links_direction, stretched_real, tip_ofRadians, add_zero]
  push_cast
  ring

/-- With the wrist held straight the tip is where it is wanted, as far as the arm extends. -/
theorem tip_stretched {p : Spot ℝ} (hnear : 0.35 ≤ ‖p.point‖) (hfar : ‖p.point‖ ≤ 1.95) :
    (stretched p).tip.point = p.point := by
  rw [tip_stretched_eq, max_eq_left hnear, min_eq_left hfar, norm_mul_direction_arg]

end ArmRover.Arm
