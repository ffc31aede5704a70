import ArmRover.Proofs.Arm.Alternation

/-!
# The round trip

A position that the tip has in some configuration within the limits is a target that the search
brings the tip back to, whatever it starts from. The first pass is enough for that: in the plane of
the arm it either solves the position, or the straight wrist comes close enough, or the position is
near the pivot, where a sweep comes close enough.

* `Arm.Comes` — a pose that comes to a position, `Arm.exists_planarFor?` — the plane of the arm.
* `Arm.allowance` — how far the tip may miss, `Arm.exists_aimed?_close` — one pass.
* `Arm.inverse?_roundTrip` — the search, `Arm.roundTrip_not_lt` — no search need come closer.
-/

namespace ArmRover

/-! ### Poses -/

namespace Planar

/-- The pose on the other side of the vertical. -/
noncomputable def mirror (p : Planar ℝ) : Planar ℝ := ⟨-p.shoulder, -p.elbow, -p.wrist⟩

theorem within_mirror {p : Planar ℝ} (h : p.within = true) : p.mirror.within = true := by
  obtain ⟨hs, he, hw⟩ := within_iff.mp h
  unfold mirror
  rw [within_iff]
  simp only [Joint.within_iff_abs_radians_le, Scalar.radians_neg, abs_neg] at hs he hw ⊢
  exact ⟨hs, he, hw⟩

theorem tip_mirror (p : Planar ℝ) : p.mirror.tip = ⟨-p.tip.reach, p.tip.height⟩ := by
  simp only [mirror, tip, Scalar.radians_neg, ← neg_add, Scalar.add_real, Scalar.mul_real,
    Scalar.sin_real, Scalar.cos_real, Real.sin_neg, Real.cos_neg, mul_neg]

/-- The tip is within reach of the outer links from the elbow. -/
theorem norm_tip_sub_upperArm_le (p : Planar ℝ) :
    ‖p.tip.point - (0.8 : ℝ) * direction (Scalar.radians p.shoulder)‖ ≤ 1.15 := by
  have houter : p.tip.point - (0.8 : ℝ) * direction (Scalar.radians p.shoulder) =
      0.7 * direction (Scalar.radians p.shoulder + Scalar.radians p.elbow) +
        0.45 * direction p.handAngle := by
    rw [tip_point]
    unfold wristPoint
    push_cast
    ring
  rw [houter]
  refine (norm_add_le _ _).trans ?_
  rw [norm_mul, norm_mul, norm_direction, norm_direction]
  norm_num

/-- Below the pivot, close to the vertical, the tip is not far from it. -/
theorem height_sq_le (p : Planar ℝ) (hshoulder : |Scalar.radians p.shoulder| ≤ Real.pi / 2)
    (hreach : |p.tip.reach| ≤ 1e-9) (hheight : p.tip.height ≤ 0) : p.tip.height ^ 2 ≤ 0.6826 := by
  obtain ⟨hs, hs'⟩ := abs_le.mp hshoulder
  have houter := pow_le_pow_left₀ (norm_nonneg _) p.norm_tip_sub_upperArm_le 2
  rw [Complex.sq_norm, Complex.normSq_apply] at houter
  simp [Spot.point] at houter
  have hcos := Real.cos_nonneg_of_neg_pi_div_two_le_of_le hs hs'
  have hsin : p.tip.reach * Real.sin (Scalar.radians p.shoulder) ≤ 1e-9 := by
    have habs := mul_le_mul hreach (Real.abs_sin_le_one (Scalar.radians p.shoulder))
      (abs_nonneg _) (by norm_num)
    rw [← abs_mul, mul_one] at habs
    exact (le_abs_self _).trans habs
  have hdown := mul_nonpos_of_nonpos_of_nonneg hheight hcos
  nlinarith [Real.sin_sq_add_cos_sq (Scalar.radians p.shoulder), sq_nonneg p.tip.reach]

end Planar

namespace Arm

/-- A pose that comes to a position: right there, with the position ahead of the arm, or, close to
the vertical, at its height. -/
def Comes (posed : Planar ℝ) (spot : Spot ℝ) : Prop :=
  spot.point = posed.tip.point ∧ 0 ≤ spot.reach ∨
    |spot.reach| ≤ 1e-9 ∧ |posed.tip.reach| ≤ 1e-9 ∧ spot.height = posed.tip.height ∧
      spot.height ≤ 1.8

variable {posed : Planar ℝ} {spot : Spot ℝ}

theorem Comes.norm_sub_le (h : Comes posed spot) : ‖spot.point - posed.tip.point‖ ≤ 2e-9 := by
  rcases h with ⟨heq, -⟩ | ⟨hspot, hposed, hheight, -⟩
  · rw [heq, sub_self, norm_zero]
    norm_num
  · have hre : (spot.point - posed.tip.point).re = 0 := sub_eq_zero.mpr hheight
    have him : |(spot.point - posed.tip.point).im| ≤ 2e-9 := by
      have hle := abs_sub spot.reach posed.tip.reach
      refine hle.trans ?_
      linarith
    have hle := Complex.norm_le_abs_re_add_abs_im (spot.point - posed.tip.point)
    rw [hre, abs_zero, zero_add] at hle
    exact hle.trans him

/-- Far from the pivot the arm with a straight wrist is within its limits. -/
theorem Comes.within_stretched (h : Comes posed spot) (hposed : posed.within = true)
    (hfar : 0.69 ≤ ‖spot.point‖ ^ 2) :
    (stretched spot).within = true ∧ ‖spot.point‖ ≤ 1.95 := by
  have hshoulder : |Scalar.radians posed.shoulder| ≤ Real.pi / 2 := by
    rw [← Joint.radians_shoulder_limit]
    exact Joint.within_iff_abs_radians_le.mp (Planar.within_iff.mp hposed).1
  have houter := posed.norm_tip_sub_upperArm_le
  rcases h with ⟨heq, hahead⟩ | ⟨hspot, hreach, hheight, hhigh⟩
  · rw [← heq] at houter
    have hnorm : ‖spot.point‖ ≤ 1.95 := by
      have hle := norm_le_norm_sub_add spot.point
        ((0.8 : ℝ) * direction (Scalar.radians posed.shoulder))
      rw [norm_mul, norm_direction, Complex.norm_real, mul_one,
        Real.norm_of_nonneg (by norm_num)] at hle
      linarith
    exact ⟨within_stretched_of_ahead hfar hnorm hahead hshoulder houter, hnorm⟩
  · have hsq := spot.sq_norm_point
    have habove : 0 ≤ spot.height := by
      by_contra hlow
      rw [hheight, not_le] at hlow
      have hle := posed.height_sq_le hshoulder hreach hlow.le
      rw [hsq, hheight, ← sq_abs spot.reach] at hfar
      nlinarith [abs_nonneg spot.reach]
    have hnorm : ‖spot.point‖ ≤ 1.95 := by
      have hle := Complex.norm_le_abs_re_add_abs_im spot.point
      have hre : |spot.point.re| ≤ 1.8 := (abs_of_nonneg habove).trans_le hhigh
      have him : |spot.point.im| ≤ 1e-9 := hspot
      linarith
    exact ⟨within_stretched_of_above hfar hnorm hspot habove, hnorm⟩

/-- The angles in the plane of the arm bring the tip close to a position that a pose comes to. -/
theorem exists_planarFor? (hposed : posed.within = true) (h : Comes posed spot) :
    ∃ p, planarFor? spot (.real 0.01) = .ok p ∧ p.within = true ∧ p.tip.distance spot ≤ 0.01 := by
  refine ⟨_, planarFor?_real spot 0.01, ?_⟩
  cases hlevel : level? spot with
  | some p =>
    obtain ⟨htip, hwithin⟩ := tip_level? hlevel
    refine ⟨hwithin, ?_⟩
    show p.tip.distance spot ≤ 0.01
    rw [Spot.distance_eq_norm, htip, sub_self, norm_zero]
    norm_num
  | none =>
    rw [Option.getD_none]
    split
    case isFalse hclose => exact ⟨Planar.within_clamp _, not_lt.mp hclose⟩
    case isTrue hfar =>
      -- Farther from the pivot a straight wrist would have come right to the position.
      have hnear : ‖spot.point‖ ^ 2 ≤ 0.69 := by
        by_contra hlt
        obtain ⟨hwithin, hnorm⟩ := h.within_stretched hposed (not_le.mp hlt).le
        have hlower : 0.35 ≤ ‖spot.point‖ :=
          le_of_sq_le_sq (le_trans (by norm_num) (not_le.mp hlt).le) (norm_nonneg _)
        rw [Planar.clamp_of_within hwithin, Spot.distance_eq_norm, tip_stretched hlower hnorm,
          sub_self, norm_zero] at hfar
        norm_num at hfar
      obtain ⟨p, hp, hwithin, hmiss⟩ := exists_swept? hposed hnear h.norm_sub_le
      rw [hp]
      exact ⟨hwithin, hmiss.trans (by norm_num)⟩

/-! ### One pass -/

/-- How far the tip may miss a target: by the tolerance, and close to the axis of the base, where a
pass does not turn it, also by as much as the target is off the axis. -/
noncomputable def allowance (target : Point ℝ) : ℝ :=
  if 1e-9 < offAxis target then 0.01 else Scalar.hypot 0.01 (offAxis target)

variable {q : Joints ℝ}

theorem offAxis_tip (q : Joints ℝ) : offAxis q.tip = |q.planar.tip.reach| := by
  rw [Joints.tip_real, offAxis_atBase]

theorem height_spotOf_tip (q : Joints ℝ) (base : ℝ) :
    (spotOf q.tip base).height = q.planar.tip.height := by
  rw [Joints.tip_real, spotOf_atBase]

/-- In the plane that a pass turns to, a pose comes to where the tip of a configuration is. -/
theorem exists_comes (hq : q.within = true) (hreach : q.tip.norm ≤ fullReach) (previous : ℝ) :
    ∃ posed, posed.within = true ∧ Comes posed (spotOf q.tip (bearing q.tip previous)) := by
  have hplanar : q.planar.within = true := by
    rw [Joints.within_iff] at hq
    exact Planar.within_iff.mpr ⟨hq .shoulder, hq .elbow, hq .wrist⟩
  have hheight := height_spotOf_tip q (bearing q.tip previous)
  by_cases haxis : 1e-9 < offAxis q.tip
  · obtain ⟨-, hspot⟩ := bearing_of_offAxis haxis previous
    rw [offAxis_tip] at hspot
    have hahead : 0 ≤ (spotOf q.tip (bearing q.tip previous)).reach := by
      rw [hspot]
      exact abs_nonneg _
    rcases le_total 0 q.planar.tip.reach with hsign | hsign
    · refine ⟨q.planar, hplanar, .inl ⟨?_, hahead⟩⟩
      unfold Spot.point
      rw [hspot, hheight, abs_of_nonneg hsign]
    · refine ⟨q.planar.mirror, Planar.within_mirror hplanar, .inl ⟨?_, hahead⟩⟩
      unfold Spot.point
      rw [hspot, hheight, abs_of_nonpos hsign, Planar.tip_mirror]
  · refine ⟨q.planar, hplanar, .inr ⟨?_, ?_, hheight, ?_⟩⟩
    · have hsq := sq_reach_add_sq_aside q.tip (bearing q.tip previous)
      refine le_trans (abs_le_of_sq_le_sq ?_ (offAxis_nonneg q.tip)) (not_lt.mp haxis)
      nlinarith [sq_nonneg (aside q.tip (bearing q.tip previous))]
    · rw [← offAxis_tip]
      exact not_lt.mp haxis
    · have hy : q.tip.y ≤ q.tip.norm := by
        refine le_of_sq_le_sq ?_ (Point.norm_real_nonneg _)
        obtain ⟨x, y, z⟩ := q.tip
        rw [Point.sq_norm_real]
        nlinarith [sq_nonneg x, sq_nonneg z]
      rw [fullReach_real] at hreach
      rw [spotOf_real]
      linarith

/-- One pass brings the tip to where it is in some configuration within the limits. -/
theorem exists_aimed?_close (hq : q.within = true) (hreach : q.tip.norm ≤ fullReach)
    {previous : Joints ℝ} (hprevious : previous.within = true) :
    ∃ next, aimed? q.tip previous (.real 0.01) = .ok next ∧
      next.miss q.tip ≤ allowance q.tip := by
  have hbase := within_bearing q.tip (Joints.within_iff.mp hprevious .base)
  obtain ⟨posed, hposed, hcomes⟩ := exists_comes hq hreach previous.base
  obtain ⟨p, hp, hwithin, hmiss⟩ := exists_planarFor? hposed hcomes
  refine ⟨_, aimed?_of_planarFor? rfl rfl hbase hp hwithin, ?_⟩
  set base := bearing q.tip previous.base with hbaseEq
  have hplanar : p.tip.distance (spotOf q.tip base) ^ 2 ≤ 0.01 ^ 2 :=
    pow_le_pow_left₀ (by rw [Spot.distance_eq_norm]; exact norm_nonneg _) hmiss 2
  have hsq := (sq_miss ⟨base, p.shoulder, p.elbow, p.wrist, Joint.gripper.clamp previous.gripper⟩
    q.tip).trans_le (add_le_add_left hplanar (aside q.tip base ^ 2))
  unfold allowance
  split
  case isTrue haxis =>
    rw [hbaseEq, (bearing_of_offAxis haxis previous.base).1, zero_pow two_ne_zero,
      add_zero] at hsq
    exact le_of_sq_le_sq hsq (by norm_num)
  case isFalse =>
    have haside := sq_reach_add_sq_aside q.tip base
    refine Real.le_sqrt_of_sq_le (hsq.trans ?_)
    linarith [sq_nonneg (spotOf q.tip base).reach]

/-! ### The search -/

theorem le_allowance (target : Point ℝ) : 0.01 ≤ allowance target := by
  unfold allowance
  split
  case isTrue => exact le_rfl
  case isFalse => exact Real.le_sqrt_of_sq_le (by linarith [sq_nonneg (offAxis target)])

/-- The search brings the tip back to where it is in some configuration within the limits. -/
theorem inverse?_roundTrip (q : Joints ℝ) (given : Option (Joints ℝ)) (hq : q.within = true)
    (hreach : q.tip.norm ≤ fullReach) :
    ∃ r, inverse? q.tip.toList (given.map Joints.toList) (.number (.whole 50)) (.real 0.01) =
      .ok r ∧ r.miss q.tip ≤ allowance q.tip := by
  have hτ : (.real 0.01 : Value ℝ).scalar? = .ok 0.01 := rfl
  obtain ⟨t, tried, early, hrun, htries, hbest⟩ := Search.exists_best hτ 50 q.tip given
  refine ⟨t.best.clamp, inverse?_of_run? (intoReach_of_le hreach) hrun, ?_⟩
  obtain ⟨-, hle, hwithin⟩ := hbest fun p _ => Joints.finite_real _ _
  obtain ⟨next, hnext, hclose⟩ :=
    exists_aimed?_close hq hreach (hwithin _ htries.current_mem).1
  cases htries with
  | early hnear =>
    exact (hle _ List.mem_cons_self).trans (hnear.le.trans (le_allowance _))
  | pass _ haim hpass hrest =>
    rw [if_pos rfl] at haim
    rw [haim] at hpass
    obtain rfl := Except.ok.inj (hpass.symm.trans hnext)
    exact (hle _ (List.mem_cons_of_mem _ hrest.current_mem)).trans hclose

/-- The upper arm level, and the outer arm straight down. -/
theorem inverse?_roundTrip_down :
    (⟨0, 90, 90, 0, 0⟩ : Joints ℝ).tip = ⟨4 / 5, -1, 0⟩ ∧
      ∃ r : Joints ℝ, inverse? [4 / 5, -1, 0] none (.number (.whole 50)) (.real 0.01) = .ok r ∧
        r.miss ⟨4 / 5, -1, 0⟩ ≤ 0.01 := by
  have htip : (⟨0, 90, 90, 0, 0⟩ : Joints ℝ).tip = ⟨4 / 5, -1, 0⟩ := by
    have hright : Scalar.radians (90 : ℝ) = Real.pi / 2 := by
      rw [Scalar.radians_real]
      ring
    have hdown : Planar.tip ⟨90, 90, 0⟩ = (⟨4 / 5, -(23 / 20)⟩ : Spot ℝ) := by
      apply Spot.point_injective
      rw [Planar.tip_point]
      unfold Planar.wristPoint Planar.handAngle
      dsimp only
      rw [hright, Scalar.radians_real 0, zero_mul, add_zero, add_halves]
      apply Complex.ext
      · simp [Spot.point]
        norm_num
      · simp [Spot.point]
        norm_num
    have htip := Joints.tip_real ⟨0, 90, 90, 0, 0⟩
    rw [Joints.planar, hdown] at htip
    rw [htip, Spot.atBase, Scalar.radians_real, zero_mul, Real.cos_zero, Real.sin_zero]
    norm_num
  have hwithin : (⟨0, 90, 90, 0, 0⟩ : Joints ℝ).within = true := by
    rw [Joints.within_iff]
    intro j
    cases j <;> norm_num [Joints.get, Joint.within_iff, Joint.limit]
  have hreach : (⟨4 / 5, -1, 0⟩ : Point ℝ).norm ≤ fullReach := by
    rw [fullReach_real]
    refine le_of_sq_le_sq ?_ (by norm_num)
    rw [Point.sq_norm_real]
    norm_num
  obtain ⟨r, hr, hmiss⟩ := inverse?_roundTrip ⟨0, 90, 90, 0, 0⟩ none hwithin (htip ▸ hreach)
  rw [htip] at hr hmiss
  refine ⟨htip, r, hr, hmiss.trans_eq (if_pos ?_)⟩
  refine lt_of_lt_of_le (by norm_num) (Real.le_sqrt_of_sq_le (?_ : (4 / 5 : ℝ) ^ 2 ≤ _))
  norm_num

/-- The tip need not come nearer than the tolerance, and next to the axis of the base not even as
near. -/
theorem roundTrip_not_lt :
    (¬ ∀ (q : Joints ℝ) (given : Option (Joints ℝ)), q.within = true → q.tip.norm ≤ fullReach →
      ∃ r, inverse? q.tip.toList (given.map Joints.toList) (.number (.whole 50)) (.real 0.01) =
        .ok r ∧ r.miss q.tip < 0.01) ∧
    (∃ q : Joints ℝ, q.within = true ∧ q.tip.norm ≤ fullReach ∧ 1e-9 < offAxis q.tip ∧
      ∃ r, inverse? q.tip.toList none (.number (.whole 50)) (.real 0.01) = .ok r ∧
        r.miss q.tip = 0.01) ∧
    ∃ q start : Joints ℝ, q.within = true ∧ q.tip.norm ≤ fullReach ∧
      ∃ r, inverse? q.tip.toList (some start.toList) (.number (.whole 50)) (.real 0.01) = .ok r ∧
        0.01 < r.miss q.tip := by
  have hahead := exists_inverse?_ahead (r := 0.02) (by norm_num) le_rfl
  refine ⟨fun hclaim => ?_, hahead, exists_inverse?_beside (r := 1e-16) (by norm_num) le_rfl⟩
  obtain ⟨q, hwithin, hreach, -, answer, hanswer, hmiss⟩ := hahead
  obtain ⟨r, hr, hlt⟩ := hclaim q none hwithin hreach
  obtain rfl := Except.ok.inj (hr.symm.trans hanswer)
  exact hlt.ne hmiss

end Arm

end ArmRover
