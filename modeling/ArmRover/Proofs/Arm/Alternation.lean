import ArmRover.Proofs.Arm.Folded
import ArmRover.Proofs.Arm.Forward

/-!
# Passes that go back and forth

Right below the pivot the tip stops short of some positions by just the tolerance, which a pass puts
up with. The next pass aims as far beyond the target and comes right to where it aims. So the one
after it aims at the target again, and none of them comes any closer.

* `Arm.exists_inverse?_of_cycle` — the answer misses by as much as all of the passes do.
* `Arm.Alternates` — bearings of the base between which passes go back and forth, and
  `Arm.Alternates.exists_inverse?` — how far the tip ends from the target.
* `Arm.alternates_ahead`, `Arm.alternates_beside` — targets ahead of the arm, and targets next to
  the axis of the base, which the base turns from one side to the other.
-/

namespace ArmRover.Arm

variable {target aim : Point ℝ} {q next : Joints ℝ} {given : Option (Joints ℝ)}

/-! ### All passes miss -/

/-- What holds after the first pass and is preserved by every other one: the tip misses the target
by so much. If the start is no closer, and that is at least the tolerance, so does the answer. -/
theorem exists_inverse?_of_cycle {P : Point ℝ → Joints ℝ → Prop} {μ : ℝ}
    (hreach : target.norm ≤ fullReach) (hμ : 0.01 ≤ μ) (hstart : μ ≤ (initial given).miss target)
    (hfirst : ∀ {next}, aimed? target (initial given) (.real 0.01) = .ok next → P target next)
    (hstep : ∀ {aim q next}, P aim q →
      aimed? (aim + (target - q.tip)) q (.real 0.01) = .ok next → P (aim + (target - q.tip)) next)
    (hmiss : ∀ {aim q}, P aim q → q.miss target = μ) :
    ∃ r, inverse? target.toList (given.map Joints.toList) (.number (.whole 50)) (.real 0.01) =
      .ok r ∧ r.miss target = μ := by
  have hτ : (.real 0.01 : Value ℝ).scalar? = .ok 0.01 := rfl
  obtain ⟨t, tried, early, hrun, htries, hbest⟩ := Search.exists_best hτ 50 target given
  refine ⟨t.best.clamp, inverse?_of_run? (intoReach_of_le hreach) hrun, ?_⟩
  obtain ⟨hmem, hle, -⟩ := hbest fun p _ => Joints.finite_real _ _
  cases htries with
  | early hnear => exact absurd hnear (not_lt.mpr (hμ.trans hstart))
  | pass _ haim hnext hrest =>
    rw [if_pos rfl] at haim
    subst haim
    -- Only the start may be outside of the cycle, and it is no closer.
    have hlater := hrest.forall_mem rfl hstep (hfirst hnext)
    refine le_antisymm ?_ ?_
    · obtain ⟨_, hcurrent⟩ := hlater _ hrest.current_mem
      exact (hle _ (List.mem_cons_of_mem _ hrest.current_mem)).trans_eq (hmiss hcurrent)
    · rcases List.mem_cons.mp hmem with hinitial | hrestMem
      · rw [hinitial]
        exact hstart
      · obtain ⟨_, hbestP⟩ := hlater _ hrestMem
        exact (hmiss hbestP).ge

/-! ### Back and forth -/

/-- Bearings between which passes for a target go back and forth: a base that is turned to one of
them stays there for the target, has it where the tip stops short, and turns to one of them for a
point as far beyond the target, which the tip comes to. -/
structure Alternates (r : ℝ) (target : Point ℝ) (bases : Set ℝ) : Prop where
  within : ∀ b ∈ bases, Joint.base.within b = true
  stays : ∀ b ∈ bases, bearing target b = b
  spot : ∀ b ∈ bases, spotOf target b = edge r
  turns : ∀ b ∈ bases, ∃ b' ∈ bases, ∃ p, Below p ∧ ‖p.point‖ ^ 2 ≤ 0.3568 ∧
    target + (target - (stop r).atBase b) = p.atBase b' ∧ bearing (p.atBase b') b = b'

/-- How far the tip ends from a target that it stops short of, some way off the plane of the arm. -/
noncomputable def shortfall (r : ℝ) (target : Point ℝ) : ℝ :=
  √(0.01 ^ 2 + (offAxis target ^ 2 - r ^ 2))

theorem miss_nonneg (q : Joints ℝ) (target : Point ℝ) : 0 ≤ q.miss target :=
  Point.norm_real_nonneg _

/-- As far beyond a target as the tip was short of it. -/
theorem miss_of_tip_eq (h : next.tip = target + (target - q.tip)) :
    next.miss target = q.miss target := by
  refine (sq_eq_sq₀ (miss_nonneg _ _) (miss_nonneg _ _)).mp ?_
  unfold Joints.miss
  rw [h]
  obtain ⟨x, y, z⟩ := target
  obtain ⟨x', y', z'⟩ := q.tip
  simp only [Point.mk_sub_mk_real, Point.mk_add_mk_real, Point.sq_norm_real]
  ring

theorem add_sub_self (aim target : Point ℝ) : aim + (target - aim) = target := by
  obtain ⟨x, y, z⟩ := target
  obtain ⟨x', y', z'⟩ := aim
  simp only [Point.mk_sub_mk_real, Point.mk_add_mk_real, add_sub_cancel]

namespace Alternates

variable {r : ℝ} {bases : Set ℝ}

theorem sq_aside (h : Alternates r target bases) (hq : q.base ∈ bases) :
    aside target q.base ^ 2 = offAxis target ^ 2 - r ^ 2 := by
  have hedge : (edge r).reach = r := rfl
  rw [← sq_reach_add_sq_aside target q.base, h.spot _ hq, hedge, add_sub_cancel_left]

theorem sq_miss (h : Alternates r target bases) (hq : q.base ∈ bases) :
    q.miss target ^ 2 = q.planar.tip.distance (edge r) ^ 2 + (offAxis target ^ 2 - r ^ 2) := by
  rw [Arm.sq_miss, h.spot _ hq, h.sq_aside hq]

/-- The configurations on the way: short of the target, or right where the pass aimed, as far beyond
it. -/
def OnTheWay (r : ℝ) (target : Point ℝ) (bases : Set ℝ) (aim : Point ℝ) (q : Joints ℝ) : Prop :=
  q.base ∈ bases ∧ q.miss target = shortfall r target ∧
    (aim = target ∧ q.planar.tip = stop r ∨ q.tip = aim)

/-- A pass for the target stops short of it. -/
theorem onTheWay_of_target (h : Alternates r target bases) (hr : 0 ≤ r) (hr' : r ≤ 0.02)
    (hq : q.base ∈ bases) (hnext : aimed? target q (.real 0.01) = .ok next) :
    OnTheWay r target bases target next := by
  obtain ⟨found, hfound, hwithin, htip⟩ := exists_planarFor?_edge hr hr'
  have hpass := aimed?_of_planarFor? (h.stays _ hq) (h.spot _ hq) (h.within _ hq) hfound hwithin
  obtain rfl := Except.ok.inj (hnext.symm.trans hpass)
  refine ⟨hq, ?_, .inl ⟨rfl, htip⟩⟩
  have hsq := h.sq_miss (q := ⟨q.base, found.shoulder, found.elbow, found.wrist,
    Joint.gripper.clamp q.gripper⟩) hq
  change _ = found.tip.distance (edge r) ^ 2 + _ at hsq
  unfold shortfall
  rw [htip, distance_stop_edge (abs_le.mpr ⟨by linarith, hr'⟩)] at hsq
  rw [← hsq, Real.sqrt_sq (miss_nonneg _ _)]

/-- The next pass comes right to the point that is as far beyond. -/
theorem onTheWay_of_stop (h : Alternates r target bases) (hq : OnTheWay r target bases target q)
    (hstop : q.planar.tip = stop r)
    (hnext : aimed? (target + (target - q.tip)) q (.real 0.01) = .ok next) :
    OnTheWay r target bases (target + (target - q.tip)) next := by
  obtain ⟨hbase, hmiss, -⟩ := hq
  obtain ⟨b, hb, p, hp, hnorm, haim, hbearing⟩ := h.turns _ hbase
  obtain ⟨found, hfound, hwithin, htip⟩ := hp.exists_planarFor? hnorm
  have hbeyond : target + (target - q.tip) = p.atBase b := by
    rw [Joints.tip_real, hstop, haim]
  rw [hbeyond] at hnext ⊢
  have hpass :=
    aimed?_of_planarFor? hbearing (spotOf_atBase_self p b) (h.within _ hb) hfound hwithin
  obtain rfl := Except.ok.inj (hnext.symm.trans hpass)
  have hthere : Joints.tip ⟨b, found.shoulder, found.elbow, found.wrist,
      Joint.gripper.clamp q.gripper⟩ = p.atBase b := by
    rw [Joints.tip_real]
    exact congrArg (Spot.atBase · b) htip
  exact ⟨hb, (miss_of_tip_eq (hthere.trans hbeyond.symm)).trans hmiss, .inr hthere⟩

theorem onTheWay_step (h : Alternates r target bases) (hr : 0 ≤ r) (hr' : r ≤ 0.02)
    (hq : OnTheWay r target bases aim q)
    (hnext : aimed? (aim + (target - q.tip)) q (.real 0.01) = .ok next) :
    OnTheWay r target bases (aim + (target - q.tip)) next := by
  rcases hq.2.2 with ⟨rfl, hstop⟩ | hthere
  · exact h.onTheWay_of_stop hq hstop hnext
  · -- The tip is right at the aim, so the error brings the aim back to the target.
    rw [hthere, add_sub_self] at hnext ⊢
    exact h.onTheWay_of_target hr hr' hq.1 hnext

/-- A search that starts at one of the bearings, no closer, goes back and forth to its end. -/
theorem exists_inverse? (h : Alternates r target bases) (hr : 0 ≤ r) (hr' : r ≤ 0.02)
    (hreach : target.norm ≤ fullReach) (hbase : (initial given).base ∈ bases)
    (hfar : 0.01 ≤ (initial given).planar.tip.distance (edge r)) :
    ∃ answer, inverse? target.toList (given.map Joints.toList) (.number (.whole 50)) (.real 0.01) =
      .ok answer ∧ answer.miss target = shortfall r target := by
  have hoff : 0 ≤ offAxis target ^ 2 - r ^ 2 := by
    rw [← h.sq_aside hbase]
    exact sq_nonneg _
  refine exists_inverse?_of_cycle (P := OnTheWay r target bases) hreach ?_ ?_
    (h.onTheWay_of_target hr hr' hbase) (h.onTheWay_step hr hr') (·.2.1)
  · exact Real.le_sqrt_of_sq_le (by linarith)
  · refine Real.sqrt_le_iff.mpr ⟨miss_nonneg _ _, ?_⟩
    rw [h.sq_miss hbase]
    have hsq := pow_le_pow_left₀ (by norm_num) hfar 2
    linarith

end Alternates

/-! ### Targets -/

section Targets

variable {r : ℝ}

/-- As far beyond the position as the tip stops short of it, in the plane or across the axis. -/
theorem below_beyond {reach : ℝ} (hr : 0 ≤ r) (hr' : r ≤ 0.02) (hreach : 0 ≤ reach)
    (hreach' : reach ≤ 0.02) :
    Below ⟨reach, 2 * (edge r).height - (stop r).height⟩ ∧
      ‖(⟨reach, 2 * (edge r).height - (stop r).height⟩ : Spot ℝ).point‖ ^ 2 ≤ 0.3568 := by
  obtain ⟨-, hstop, hstop'⟩ := stop_bounds hr hr'
  obtain ⟨hedge, hedge'⟩ := edge_height_bounds (abs_le.mpr ⟨by linarith, hr'⟩ : |r| ≤ 0.02)
  refine ⟨⟨hreach, by linarith, by linarith, by linarith⟩, ?_⟩
  rw [Spot.sq_norm_point]
  dsimp only
  nlinarith

/-- A target ahead of the arm: the base stays. -/
theorem alternates_ahead (hr : 0.01 ≤ r) (hr' : r ≤ 0.02) :
    Alternates r ((edge r).atBase 0) {0} := by
  have hzero : |Scalar.radians (0 : ℝ)| < Real.pi := by
    rw [Scalar.radians_real, zero_mul, abs_zero]
    exact Real.pi_pos
  obtain ⟨⟨hstop, hstop'⟩, -, -⟩ := stop_bounds (by linarith) hr'
  have hedge : (edge r).reach = r := rfl
  refine ⟨?_, ?_, ?_, ?_⟩
  · rintro b rfl
    exact Joint.within_zero_real .base
  · rintro b rfl
    exact bearing_atBase (by rw [hedge]; linarith) hzero 0
  · rintro b rfl
    exact spotOf_atBase_self _ 0
  · rintro b rfl
    obtain ⟨hbelow, hnorm⟩ := below_beyond (by linarith) hr'
      (by linarith : 0 ≤ 2 * r - (stop r).reach) (by linarith)
    refine ⟨0, rfl, _, hbelow, hnorm, ?_, bearing_atBase (by dsimp only; linarith) hzero 0⟩
    unfold Spot.atBase
    simp only [hedge, Point.mk_sub_mk_real, Point.mk_add_mk_real]
    congr 1 <;> ring

/-- How far the base turns aside to have a target next to its axis where the tip stops short. -/
noncomputable def sideTurn (r : ℝ) : ℝ := Real.arccos √(r / (stop r).reach)

/-- A position next to the axis of the base, that is less far ahead from aside. -/
noncomputable def beside (r : ℝ) : Spot ℝ :=
  ⟨(stop r).reach * √(r / (stop r).reach), (edge r).height⟩

theorem cos_sideTurn (hr : 0 ≤ r) (hr' : r ≤ 0.02) :
    Real.cos (sideTurn r) = √(r / (stop r).reach) := by
  obtain ⟨⟨hstop, -⟩, -, -⟩ := stop_bounds hr hr'
  have hle : r / (stop r).reach ≤ 1 := by
    rw [div_le_one (by linarith)]
    linarith
  exact Real.cos_arccos (by linarith [Real.sqrt_nonneg (r / (stop r).reach)])
    (Real.sqrt_le_one.mpr hle)

theorem sideTurn_nonneg (r : ℝ) : 0 ≤ sideTurn r := Real.arccos_nonneg _

theorem sideTurn_lt_pi (r : ℝ) : sideTurn r < Real.pi := by
  have hle := Real.arccos_le_pi_div_two.mpr (Real.sqrt_nonneg (r / (stop r).reach))
  exact hle.trans_lt (by linarith [Real.pi_pos])

theorem sq_beside_reach (hr : 0 ≤ r) (hr' : r ≤ 0.02) :
    (beside r).reach ^ 2 = r * (stop r).reach := by
  obtain ⟨⟨hstop, -⟩, -, -⟩ := stop_bounds hr hr'
  have hpos : 0 < (stop r).reach := by linarith
  unfold beside
  dsimp only
  rw [mul_pow, Real.sq_sqrt (by positivity)]
  field_simp

theorem abs_beside_reach_le (hr : 0 ≤ r) (hr' : r ≤ 1e-16) : |(beside r).reach| ≤ 1e-9 := by
  have hsmall : r ≤ 0.02 := hr'.trans (by norm_num)
  obtain ⟨⟨-, hstop⟩, -, -⟩ := stop_bounds hr hsmall
  refine abs_le_of_sq_le_sq ?_ (by norm_num)
  rw [sq_beside_reach hr hsmall]
  nlinarith

/-- A target next to the axis: the base turns from one side to the other. -/
theorem alternates_beside (hr : 0 ≤ r) (hr' : r ≤ 1e-16) :
    Alternates r ((beside r).atBase 0) {b | |Scalar.radians b| = sideTurn r} := by
  have hsmall : r ≤ 0.02 := hr'.trans (by norm_num)
  obtain ⟨⟨hstop, hstop'⟩, -, -⟩ := stop_bounds hr hsmall
  have hcos {b : ℝ} (hb : |Scalar.radians b| = sideTurn r) :
      Real.cos (Scalar.radians b) = √(r / (stop r).reach) := by
    rw [← Real.cos_abs, hb, cos_sideTurn hr hsmall]
  have hneg {b : ℝ} (hb : |Scalar.radians b| = sideTurn r) :
      |Scalar.radians (-b)| = sideTurn r := by
    rw [Scalar.radians_neg, abs_neg, hb]
  have hlt {b : ℝ} (hb : |Scalar.radians b| = sideTurn r) : |Scalar.radians b| < Real.pi :=
    hb.trans_lt (sideTurn_lt_pi r)
  refine ⟨fun b hb => ?_, fun b hb => ?_, fun b hb => ?_, fun b hb => ?_⟩
  · rw [Joint.within_iff_abs_radians_le, Joint.radians_base_limit]
    exact (hlt hb).le
  · apply bearing_of_onAxis
    rw [offAxis_atBase]
    exact abs_beside_reach_le hr hr'
  · have hpos : 0 < (stop r).reach := by linarith
    rw [spotOf_atBase, Scalar.radians_real 0, zero_mul, sub_zero, hcos hb]
    unfold beside edge
    rw [mul_assoc, Real.mul_self_sqrt (by positivity), mul_div_cancel₀ _ hpos.ne']
  · obtain ⟨hbelow, hnorm⟩ := below_beyond hr hsmall (by linarith : 0 ≤ (stop r).reach)
      (by linarith)
    refine ⟨-b, hneg hb, _, hbelow, hnorm, ?_, bearing_atBase (by dsimp only; linarith)
      (hlt (hneg hb)) b⟩
    unfold Spot.atBase beside
    simp only [Point.mk_sub_mk_real, Point.mk_add_mk_real, Scalar.radians_neg, Real.cos_neg,
      Real.sin_neg, Scalar.radians_real 0, zero_mul, Real.cos_zero, Real.sin_zero, hcos hb]
    congr 1 <;> ring

/-- The tip is right below the pivot in a configuration within the limits. -/
theorem Below.exists_tip_eq {p : Spot ℝ} (hp : Below p) :
    ∃ q : Joints ℝ, q.within = true ∧ q.tip = p.atBase 0 := by
  obtain ⟨hwithin, htip⟩ := hp.within_handAt
  set posed := handAt p (backBend p) backHand
  obtain ⟨hs, he, hw⟩ := Planar.within_iff.mp hwithin
  refine ⟨⟨0, posed.shoulder, posed.elbow, posed.wrist, 0⟩, Joints.within_iff.mpr fun j => ?_, ?_⟩
  · cases j
    · exact Joint.within_zero_real .base
    · exact hs
    · exact he
    · exact hw
    · exact Joint.within_zero_real .gripper
  · rw [Joints.tip_real]
    exact congrArg (Spot.atBase · 0) (Spot.point_injective htip)

theorem Below.norm_atBase_le {p : Spot ℝ} (hp : Below p) : (p.atBase 0).norm ≤ fullReach := by
  obtain ⟨hr, hr', hh, hh'⟩ := hp
  rw [fullReach_real]
  refine le_of_sq_le_sq ?_ (by norm_num)
  unfold Spot.atBase
  rw [Point.sq_norm_real, Scalar.radians_real, zero_mul, Real.cos_zero, Real.sin_zero]
  nlinarith

/-- An upright arm is far away. -/
theorem le_distance_edge {p : Planar ℝ} (hp : p = ⟨0, 0, 0⟩) (hr : |r| ≤ 0.02) :
    0.01 ≤ p.tip.distance (edge r) := by
  obtain ⟨-, hh⟩ := edge_height_bounds hr
  have htip : p.tip.point = 1.95 := by
    rw [Planar.tip_point, hp]
    simp [Planar.wristPoint, Planar.handAngle, Scalar.radians_real]
    norm_num
  rw [Spot.distance_eq_norm, htip]
  refine le_trans ?_ (Complex.re_le_norm _)
  have hre : (1.95 - (edge r).point).re = 1.95 - (edge r).height := by
    simp [Spot.point]
  rw [hre]
  linarith

theorem initial_upright {b : ℝ} (h : Joint.base.within b = true) :
    initial (some (⟨b, 0, 0, 0, 0⟩ : Joints ℝ)) = ⟨b, 0, 0, 0, 0⟩ :=
  Joints.clamp_of_within (Joints.within_iff.mpr fun j => by
    cases j
    · exact h
    all_goals exact Joint.within_zero_real _)

theorem below_edge (hr : 0 ≤ r) (hr' : r ≤ 0.02) : Below (edge r) := by
  obtain ⟨hh, hh'⟩ := edge_height_bounds (abs_le.mpr ⟨by linarith, hr'⟩ : |r| ≤ 0.02)
  have hedge : (edge r).reach = r := rfl
  exact ⟨by linarith, by linarith, by linarith, by linarith⟩

theorem below_beside (hr : 0 ≤ r) (hr' : r ≤ 1e-16) : Below (beside r) := by
  have hsmall : r ≤ 0.02 := hr'.trans (by norm_num)
  obtain ⟨⟨hstop, -⟩, -, -⟩ := stop_bounds hr hsmall
  have hclose := (le_abs_self _).trans (abs_beside_reach_le hr hr')
  exact ⟨mul_nonneg (by linarith) (Real.sqrt_nonneg _), by linarith, (below_edge hr hsmall).low,
    (below_edge hr hsmall).high⟩

/-- Ahead of the arm the answer may miss by the tolerance. -/
theorem exists_inverse?_ahead (hr : 0.01 ≤ r) (hr' : r ≤ 0.02) :
    ∃ q : Joints ℝ, q.within = true ∧ q.tip.norm ≤ fullReach ∧ 1e-9 < offAxis q.tip ∧
      ∃ answer, inverse? q.tip.toList none (.number (.whole 50)) (.real 0.01) = .ok answer ∧
        answer.miss q.tip = 0.01 := by
  have hnonneg : 0 ≤ r := by linarith
  have hbelow := below_edge hnonneg hr'
  obtain ⟨q, hwithin, htip⟩ := hbelow.exists_tip_eq
  have hoff : offAxis q.tip = r := by
    rw [htip, offAxis_atBase]
    exact abs_of_nonneg hnonneg
  have hbase : (initial none : Joints ℝ).base = 0 := by
    simp [initial, Joints.zero]
  have hplanar : (initial none : Joints ℝ).planar = ⟨0, 0, 0⟩ := by
    simp [initial, Joints.planar, Joints.zero]
  have hfar := le_distance_edge hplanar (abs_le.mpr ⟨by linarith, hr'⟩)
  obtain ⟨answer, hanswer, hmiss⟩ := (alternates_ahead hr hr').exists_inverse? hnonneg hr'
    hbelow.norm_atBase_le hbase hfar
  rw [← htip] at hanswer hmiss
  refine ⟨q, hwithin, htip ▸ hbelow.norm_atBase_le, by rw [hoff]; linarith, answer, hanswer, ?_⟩
  rw [hmiss, shortfall, hoff, sub_self, add_zero, Real.sqrt_sq (by norm_num)]

/-- Next to the axis of the base the answer may miss by more. -/
theorem exists_inverse?_beside (hr : 0 < r) (hr' : r ≤ 1e-16) :
    ∃ q start : Joints ℝ, q.within = true ∧ q.tip.norm ≤ fullReach ∧
      ∃ answer, inverse? q.tip.toList (some start.toList) (.number (.whole 50)) (.real 0.01) =
        .ok answer ∧ 0.01 < answer.miss q.tip := by
  have hsmall : r ≤ 0.02 := hr'.trans (by norm_num)
  obtain ⟨⟨hstop, -⟩, -, -⟩ := stop_bounds hr.le hsmall
  have hbelow := below_beside hr.le hr'
  have halternates := alternates_beside hr.le hr'
  obtain ⟨q, hwithin, htip⟩ := hbelow.exists_tip_eq
  set start : Joints ℝ := ⟨Scalar.degrees (sideTurn r), 0, 0, 0, 0⟩ with hstart
  have hturned : |Scalar.radians start.base| = sideTurn r := by
    rw [hstart, Scalar.radians_degrees, abs_of_nonneg (sideTurn_nonneg r)]
  have hinitial : initial (some start) = start := initial_upright (halternates.within _ hturned)
  have hplanar : (initial (some start)).planar = ⟨0, 0, 0⟩ := by
    rw [hinitial]
    rfl
  have hfar := le_distance_edge hplanar (abs_le.mpr ⟨by linarith, hsmall⟩)
  rw [← hinitial] at hturned
  obtain ⟨answer, hanswer, hmiss⟩ := halternates.exists_inverse? hr.le hsmall
    hbelow.norm_atBase_le hturned hfar
  have hoff : offAxis q.tip ^ 2 = r * (stop r).reach := by
    rw [htip, offAxis_atBase, sq_abs, sq_beside_reach hr.le hsmall]
  rw [← htip] at hanswer hmiss
  refine ⟨q, start, hwithin, htip ▸ hbelow.norm_atBase_le, answer, hanswer, ?_⟩
  rw [hmiss, shortfall, hoff]
  refine Real.lt_sqrt_of_sq_lt ?_
  nlinarith

end Targets

end ArmRover.Arm
