import ArmRover.Proofs.Action
import ArmRover.Proofs.Settings.Standard
import ArmRover.Proofs.Value.Amount
import ArmRover.Rover.Drive

/-!
# The velocities of the rover

Whatever velocities are asked for, the rover has some within its limits. Friction brings them
closer to zero, and one that is slow enough becomes zero at once. All of this is over the real
numbers, and for settings with numbers that make sense: limits and a rate that are not negative,
and a friction that leaves a share of a velocity. The least speed and the watchdog may be anything.

* `Settings.Driving.Bounded`, `Settings.Driving.Damped` — such settings, `Rover.Within` — a rover
  within its limits.
* `Station.exists_limited?`, `Station.setVelocities_of_bounded` — how velocities are set.
* `Drive.kept` — what is left of a velocity, `Drive.kept_kept` — after two stretches of time that is
  the same as after both at once.
* `Drive.slowed?_of_isNumber`, `Drive.slowed?_of_not_isNumber` — friction.
-/

namespace ArmRover

open ArmRover.Action

/-- The limits of the velocities are numbers that are not negative. -/
structure Settings.Driving.Bounded (driving : Settings.Driving ℝ) : Prop where
  linear : driving.maxLinear.IsNumber
  linear_nonneg : 0 ≤ driving.maxLinear.amount
  angular : driving.maxAngular.IsNumber
  angular_nonneg : 0 ≤ driving.maxAngular.amount

/-- Velocities have limits, and friction leaves a share of them for each period of a rate. -/
structure Settings.Driving.Damped (driving : Settings.Driving ℝ) : Prop extends
    driving.Bounded where
  friction : driving.friction.IsNumber
  friction_nonneg : 0 ≤ driving.friction.amount
  friction_le_one : driving.friction.amount ≤ 1
  rate : driving.frictionRate.IsNumber
  rate_nonneg : 0 ≤ driving.frictionRate.amount

theorem Settings.maxLinear_standard :
    (Settings.standard : Settings ℝ).driving.maxLinear.amount = 2 :=
  (Value.amount_decimal 20 1).trans (by norm_num)

theorem Settings.maxAngular_standard :
    (Settings.standard : Settings ℝ).driving.maxAngular.amount = 3 / 2 :=
  (Value.amount_decimal 15 1).trans (by norm_num)

theorem Settings.damped_standard : (Settings.standard : Settings ℝ).driving.Damped where
  linear := ⟨_, rfl⟩
  linear_nonneg := maxLinear_standard.symm ▸ zero_le_two
  angular := ⟨_, rfl⟩
  angular_nonneg := maxAngular_standard.symm ▸ by positivity
  friction := ⟨_, rfl⟩
  friction_nonneg := (Value.amount_decimal 95 2).symm ▸ by positivity
  friction_le_one := (Value.amount_decimal 95 2).symm ▸ by norm_num
  rate := ⟨_, rfl⟩
  rate_nonneg := by
    rw [Value.amount_of_number (n := .whole 60) rfl]
    exact Int.cast_nonneg (by decide)

/-- Both velocities are within their limits. -/
structure Rover.Within (driving : Settings.Driving ℝ) (r : Rover ℝ) : Prop where
  vx : |r.vx.value| ≤ driving.maxLinear.amount
  wz : |r.wz.value| ≤ driving.maxAngular.amount

/-! ### At home -/

section Home

variable (driving : Settings.Driving ℝ) (senses : Settings.Senses ℝ)

theorem Rover.value_vx_home : (Rover.home driving senses).vx.value = 0 := Scalar.zero_real

theorem Rover.value_wz_home : (Rover.home driving senses).wz.value = 0 := Scalar.zero_real

theorem Rover.within_home {driving : Settings.Driving ℝ} (h : driving.Bounded) :
    (Rover.home driving senses).Within driving := by
  constructor
  · rw [value_vx_home, abs_zero]
    exact h.linear_nonneg
  · rw [value_wz_home, abs_zero]
    exact h.angular_nonneg

end Home

/-! ### Limits -/

namespace Station

variable {limit : Value ℝ} {n : Number ℝ}

theorem exists_limited? (h : limit.IsNumber) (v : ℝ) :
    ∃ n, limited? limit v = .ok n ∧ n.value = min (max v (-limit.amount)) limit.amount := by
  obtain ⟨bound, hbound, hamount⟩ := Value.exists_number? h
  refine ⟨(Number.real v).clamp bound.negated bound, ?_, ?_⟩
  · unfold limited?
    rw [hbound]
    rfl
  · rw [Number.value_clamp, Number.value_negated, hamount]
    rfl

theorem value_of_limited? (h : limit.IsNumber) {v : ℝ} (hrun : limited? limit v = .ok n) :
    n.value = min (max v (-limit.amount)) limit.amount := by
  obtain ⟨m, hm, hvalue⟩ := exists_limited? h v
  cases hm.symm.trans hrun
  exact hvalue

theorem abs_le_of_limited? (h : limit.IsNumber) (hlimit : 0 ≤ limit.amount) {v : ℝ}
    (hrun : limited? limit v = .ok n) : |n.value| ≤ limit.amount := by
  rw [value_of_limited? h hrun]
  exact abs_le.mpr ⟨le_min (le_max_right _ _) (by linarith), min_le_right _ _⟩

/-- A velocity within the limit stays what it is. -/
theorem exists_limited?_of_abs_le (h : limit.IsNumber) {v : ℝ} (hv : |v| ≤ limit.amount) :
    ∃ n, limited? limit v = .ok n ∧ n.value = v := by
  obtain ⟨n, hrun, hvalue⟩ := exists_limited? h v
  obtain ⟨hlower, hupper⟩ := abs_le.mp hv
  exact ⟨n, hrun, by rw [hvalue, max_eq_left hlower, min_eq_left hupper]⟩

theorem setVelocities_of_limited? {driving : Settings.Driving ℝ} {vx wz : ℝ} {m n : Number ℝ}
    (hvx : limited? driving.maxLinear vx = .ok m) (hwz : limited? driving.maxAngular wz = .ok n)
    (time : Option ℝ) (s : Station ℝ) :
    setVelocities driving vx wz time s = .ok () { s with rover := { s.rover with
      vx := m, wz := n, lastCommand := time <|> s.rover.lastCommand } } := by
  unfold setVelocities
  rw [hvx, hwz]
  rfl

/-- With limits the velocities can always be set, and they are within the limits afterwards. -/
theorem setVelocities_of_bounded {driving : Settings.Driving ℝ} (h : driving.Bounded) (vx wz : ℝ)
    (time : Option ℝ) (s : Station ℝ) :
    ∃ m n, setVelocities driving vx wz time s = .ok () { s with rover := { s.rover with
        vx := m, wz := n, lastCommand := time <|> s.rover.lastCommand } } ∧
      |m.value| ≤ driving.maxLinear.amount ∧ |n.value| ≤ driving.maxAngular.amount := by
  obtain ⟨m, hm, -⟩ := exists_limited? h.linear vx
  obtain ⟨n, hn, -⟩ := exists_limited? h.angular wz
  exact ⟨m, n, setVelocities_of_limited? hm hn time s,
    abs_le_of_limited? h.linear h.linear_nonneg hm,
    abs_le_of_limited? h.angular h.angular_nonneg hn⟩

end Station

/-! ### What is left of a velocity -/

namespace Drive

variable {driving : Settings.Driving ℝ}

/-- What friction and the least speed leave of a velocity after a stretch of time. -/
noncomputable def kept (driving : Settings.Driving ℝ) (dt v : ℝ) : ℝ :=
  let slower := v * driving.friction.amount ^ (dt * driving.frictionRate.amount)
  if |slower| < driving.leastSpeed.amount then 0 else slower

theorem kept_zero (driving : Settings.Driving ℝ) (dt : ℝ) : kept driving dt 0 = 0 := by
  unfold kept
  dsimp only
  rw [zero_mul]
  split <;> rfl

/-- What is left is zero or a share of the velocity. -/
theorem exists_kept_eq (h : driving.Damped) {dt : ℝ} (hdt : 0 ≤ dt) (v : ℝ) :
    ∃ share, 0 ≤ share ∧ share ≤ 1 ∧ kept driving dt v = v * share := by
  unfold kept
  dsimp only
  split
  case isTrue => exact ⟨0, le_refl 0, zero_le_one, (mul_zero v).symm⟩
  case isFalse =>
    refine ⟨_, Real.rpow_nonneg h.friction_nonneg _, ?_, rfl⟩
    exact Real.rpow_le_one h.friction_nonneg h.friction_le_one (mul_nonneg hdt h.rate_nonneg)

theorem abs_kept_le (h : driving.Damped) {dt : ℝ} (hdt : 0 ≤ dt) (v : ℝ) :
    |kept driving dt v| ≤ |v| := by
  obtain ⟨share, hpos, hle, heq⟩ := exists_kept_eq h hdt v
  rw [heq, abs_mul, abs_of_nonneg hpos]
  exact mul_le_of_le_one_right (abs_nonneg v) hle

/-- A velocity does not change its direction. -/
theorem mul_kept_nonneg (h : driving.Damped) {dt : ℝ} (hdt : 0 ≤ dt) (v : ℝ) :
    0 ≤ v * kept driving dt v := by
  obtain ⟨share, hpos, -, heq⟩ := exists_kept_eq h hdt v
  rw [heq, ← mul_assoc]
  exact mul_nonneg (mul_self_nonneg v) hpos

/-- What is left after two stretches of time is what is left after both at once. One that is too
slow after the first stretch would be too slow after both. -/
theorem kept_kept (h : driving.Damped) {a b : ℝ} (ha : 0 ≤ a) (hb : 0 ≤ b) (v : ℝ) :
    kept driving b (kept driving a v) = kept driving (a + b) v := by
  set friction := driving.friction.amount
  set rate := driving.frictionRate.amount with hrate
  have hsplit : v * friction ^ ((a + b) * rate) =
      v * friction ^ (a * rate) * friction ^ (b * rate) := by
    rw [add_mul, Real.rpow_add_of_nonneg h.friction_nonneg (mul_nonneg ha h.rate_nonneg)
      (mul_nonneg hb h.rate_nonneg), mul_assoc]
  by_cases hslow : |v * friction ^ (a * rate)| < driving.leastSpeed.amount
  · have hfirst : kept driving a v = 0 := if_pos hslow
    have hlater : |v * friction ^ ((a + b) * rate)| ≤ |v * friction ^ (a * rate)| := by
      rw [hsplit, abs_mul]
      refine mul_le_of_le_one_right (abs_nonneg _) ?_
      rw [abs_of_nonneg (Real.rpow_nonneg h.friction_nonneg _)]
      exact Real.rpow_le_one h.friction_nonneg h.friction_le_one (mul_nonneg hb h.rate_nonneg)
    rw [hfirst, kept_zero]
    exact (if_pos (lt_of_le_of_lt hlater hslow)).symm
  · have hfirst : kept driving a v = v * friction ^ (a * rate) := if_neg hslow
    rw [hfirst]
    unfold kept
    dsimp only
    rw [hsplit]

/-! ### Friction -/

theorem decay?_of_damped (h : driving.Damped) {dt : ℝ} (hdt : 0 ≤ dt) :
    decay? driving dt =
      .ok (.factor (driving.friction.amount ^ (dt * driving.frictionRate.amount))) := by
  have hexponent : ¬ dt * driving.frictionRate.amount < 0 :=
    not_lt.mpr (mul_nonneg hdt h.rate_nonneg)
  have hfriction : ¬ driving.friction.amount < 0 := not_lt.mpr h.friction_nonneg
  unfold decay?
  rw [Value.scalar?_of_isNumber h.rate, Value.scalar?_of_isNumber h.friction]
  show power? driving.friction.amount (dt * driving.frictionRate.amount) = _
  unfold power?
  simp [hexponent, hfriction]
  rfl

theorem stalled?_of_isNumber (h : driving.leastSpeed.IsNumber) (speed : ℝ) :
    stalled? driving speed = .ok (decide (speed < driving.leastSpeed.amount)) :=
  Value.ask?_above h speed

theorem floored?_of_stalled? {α : Type} [Scalar α] {driving : Settings.Driving α} {v : α}
    {slow : Bool} (h : stalled? driving (Scalar.abs v) = .ok slow) :
    (do return if ← stalled? driving (Scalar.abs v) then 0 else v : Except (Fault α) α) =
      .ok (if slow then 0 else v) := by
  rw [h]
  rfl

/-- Friction leaves velocities within their limits, so that nothing else is taken from them. -/
theorem slowed?_of_isNumber (h : driving.Damped) (hleast : driving.leastSpeed.IsNumber) {dt : ℝ}
    (hdt : 0 ≤ dt) {vx wz : Number ℝ} (hvx : |vx.value| ≤ driving.maxLinear.amount)
    (hwz : |wz.value| ≤ driving.maxAngular.amount) (s : Station ℝ) :
    ∃ m n : Number ℝ, m.value = kept driving dt vx.value ∧ n.value = kept driving dt wz.value ∧
      slowed? driving dt vx wz s =
        .ok (m.value, n.value) { s with rover := { s.rover with vx := m, wz := n } } := by
  obtain ⟨m, hm, hmvalue⟩ := Station.exists_limited?_of_abs_le h.linear
    ((abs_kept_le h hdt vx.value).trans hvx)
  obtain ⟨n, hn, hnvalue⟩ := Station.exists_limited?_of_abs_le h.angular
    ((abs_kept_le h hdt wz.value).trans hwz)
  refine ⟨m, n, hmvalue, hnvalue, ?_⟩
  unfold slowed?
  rw [decay?_of_damped h hdt, Number.scalar?_eq_value, Number.scalar?_eq_value, run_lift_bind,
    run_lift_bind, run_lift_bind]
  dsimp only
  rw [floored?_of_stalled? (stalled?_of_isNumber hleast _),
    floored?_of_stalled? (stalled?_of_isNumber hleast _), run_lift_bind, run_lift_bind]
  simp only [Scalar.abs_real, decide_eq_true_eq, Scalar.zero_real, Scalar.mul_real]
  rw [hmvalue, hnvalue]
  exact run_bind (Station.setVelocities_of_limited? hm hn none s)

/-- Without a least speed that is a number, friction fails before it changes anything. -/
theorem slowed?_of_not_isNumber (h : driving.Damped) (hleast : ¬ driving.leastSpeed.IsNumber)
    {dt : ℝ} (hdt : 0 ≤ dt) (vx wz : Number ℝ) (s : Station ℝ) :
    ∃ fault, slowed? driving dt vx wz s = .error fault s := by
  have hstalled : ∃ fault, ∀ speed, stalled? driving speed = .error fault := by
    unfold stalled?
    cases hrun : driving.leastSpeed.number? with
    | ok n => exact absurd ⟨n, hrun⟩ hleast
    | error fault => exact ⟨fault, fun _ => rfl⟩
  obtain ⟨fault, hfault⟩ := hstalled
  refine ⟨fault, ?_⟩
  unfold slowed?
  rw [decay?_of_damped h hdt, Number.scalar?_eq_value, Number.scalar?_eq_value, run_lift_bind,
    run_lift_bind, run_lift_bind]
  dsimp only
  rw [hfault]
  rfl

end Drive

end ArmRover
