import ArmRover.Proofs.Action
import ArmRover.Proofs.Execution.Plan

/-!
# The time of steps

A sleep ends in the first frame in which its time has come up to the slack, and the turning of a
joint in the first frame in which all of its time has passed. A frame more than that is not
needed.

* `OnTime` — the time that waits take together, `OnTime.append` — times add up.
* `exists_first_frame` — the first frame in which a time has come.
* `Step.take_sleep_of_pos`, `Step.take_turn_of_lt` — steps that wait, `Step.take_sleep_of_nonpos`,
  `Step.take_turn_of_le`, `Step.take_drive` — steps that are done at once.
-/

namespace ArmRover

open ArmRover.Action

/-! ### Being on time -/

/-- The time that has passed is that of the waits that are made, which are those of positive length:
at least up to the slack for each, and with at most one frame more for each. -/
def OnTime (dt : ℝ) (waits : List ℝ) (elapsed : ℝ) : Prop :=
  let made := waits.filter (0 < ·)
  made.sum - Clock.slack * made.length ≤ elapsed ∧ elapsed ≤ made.sum + dt * made.length

section OnTime

variable {dt s elapsed : ℝ}

/-- Without waits no frame passes. -/
theorem onTime_nil : OnTime dt [] ((0 : Nat) * dt) := by
  simp [OnTime]

/-- A wait that is not of positive length is not made. -/
theorem onTime_of_nonpos (h : s ≤ 0) : OnTime dt [s] ((0 : Nat) * dt) := by
  simp [OnTime, List.filter, not_lt.mpr h]

theorem onTime_of_pos (h : 0 < s) (hleast : s - Clock.slack ≤ elapsed) (hmost : elapsed ≤ s + dt) :
    OnTime dt [s] elapsed := by
  have hmade : [s].filter (0 < ·) = [s] := by simp [List.filter, h]
  unfold OnTime
  rw [hmade]
  simp only [List.sum_singleton, List.length_singleton, Nat.cast_one, mul_one]
  exact ⟨hleast, hmost⟩

/-- Waits after other waits take their frames after the frames of those. -/
theorem OnTime.append {waits waits' : List ℝ} {k m : Nat} (h : OnTime dt waits (k * dt))
    (h' : OnTime dt waits' (m * dt)) : OnTime dt (waits ++ waits') ((k + m : Nat) * dt) := by
  obtain ⟨hleast, hmost⟩ := h
  obtain ⟨hleast', hmost'⟩ := h'
  unfold OnTime
  rw [Nat.cast_add, add_mul]
  simp only [List.filter_append, List.sum_append, List.length_append, Nat.cast_add]
  constructor
  · linarith
  · linarith

/-- Frames of positive length reach every time, and there is a first one that does. -/
theorem exists_first_frame (hdt : 0 < dt) (time : ℝ) :
    ∃ k : Nat, time ≤ k * dt ∧ (∀ i < k, (i : Nat) * dt < time) ∧ (0 < k → k * dt < time + dt) := by
  classical
  have hreached : ∃ k : Nat, time ≤ k * dt := by
    obtain ⟨k, hk⟩ := exists_nat_ge (time / dt)
    exact ⟨k, (div_le_iff₀ hdt).mp hk⟩
  refine ⟨Nat.find hreached, Nat.find_spec hreached, ?_, ?_⟩
  · intro i hi
    exact not_le.mp (Nat.find_min hreached hi)
  · -- the frame before the first one was still too early
    intro hpos
    obtain ⟨k, hk⟩ := Nat.exists_eq_succ_of_ne_zero hpos.ne'
    have hbefore : (k : ℝ) * dt < time :=
      not_le.mp (Nat.find_min hreached (by rw [hk]; exact Nat.lt_succ_self k))
    rw [hk, Nat.cast_succ, add_one_mul]
    linarith

end OnTime

/-! ### Steps that wait -/

namespace Step

variable {cfg : Settings ℝ} {scene : Scene ℝ}

theorem take_sleep_of_pos {s : ℝ} (h : 0 < s) :
    (sleep s).take cfg scene = .ok (.waits scene.clock.issued [])
      { scene with clock := scene.clock.register (.time (scene.clock.now + s)) } := by
  have hpause : pause (.sleep s) [] scene = (.waits scene.clock.issued [],
      { scene with clock := scene.clock.register (.time (scene.clock.now + s)) }) := by
    unfold pause
    rw [scene.clock.dueAfter_of_pos h]
  show EStateM.Result.ok (pause (.sleep s) [] scene).1 (pause (.sleep s) [] scene).2 = _
  rw [hpause]

theorem take_sleep_of_nonpos {s : ℝ} (h : s ≤ 0) :
    (sleep s).take cfg scene = .ok .done scene := by
  have hpause : pause (.sleep s) [] scene = (.done, scene) := by
    unfold pause
    rw [scene.clock.dueAfter_of_nonpos h]
  show EStateM.Result.ok (pause (.sleep s) [] scene).1 (pause (.sleep s) [] scene).2 = _
  rw [hpause]

/-- The share of a duration that has passed, where it is known. -/
theorem exists_of_progress? {duration : Value ℝ} {elapsed share : ℝ}
    (h : progress? elapsed duration = .ok share) :
    ∃ n, duration.number? = .ok n ∧
      share = if 0 < n.value then min (elapsed / n.value) 1 else 1 := by
  unfold progress? at h
  obtain ⟨n, hn, h⟩ := Action.bind_eq_ok.mp h
  refine ⟨n, hn, ?_⟩
  have habove : n.above (Scalar.ofInt 0) = true ↔ 0 < n.value := by
    rw [Number.above_real, Scalar.ofInt_real, Int.cast_zero, decide_eq_true_eq]
  split at h
  · next hpos =>
    rw [n.scalar?_eq_value] at h
    rw [if_pos (habove.mp hpos), ← Scalar.lesser_real, ← Scalar.one_real]
    exact (Except.ok.inj h).symm
  · next hpos =>
    rw [if_neg fun hvalue => hpos (habove.mpr hvalue), ← Scalar.one_real]
    exact (Except.ok.inj h).symm

theorem progress?_le_one {duration : Value ℝ} {elapsed share : ℝ}
    (h : progress? elapsed duration = .ok share) : share ≤ 1 := by
  obtain ⟨n, -, rfl⟩ := exists_of_progress? h
  split
  · exact min_le_right _ _
  · exact le_rfl

theorem progress?_nonneg {duration : Value ℝ} {elapsed share : ℝ} (helapsed : 0 ≤ elapsed)
    (h : progress? elapsed duration = .ok share) : 0 ≤ share := by
  obtain ⟨n, -, rfl⟩ := exists_of_progress? h
  split
  · next hpos => exact le_min (div_nonneg helapsed hpos.le) zero_le_one
  · exact zero_le_one

/-- The share grows with the time. -/
theorem progress?_le_progress? {duration : Value ℝ} {elapsed elapsed' share share' : ℝ}
    (hle : elapsed ≤ elapsed') (h : progress? elapsed duration = .ok share)
    (h' : progress? elapsed' duration = .ok share') : share ≤ share' := by
  obtain ⟨n, hn, rfl⟩ := exists_of_progress? h
  obtain ⟨n', hn', rfl⟩ := exists_of_progress? h'
  cases hn.symm.trans hn'
  split
  · next hpos => exact min_le_min_right 1 (div_le_div_of_nonneg_right hle hpos.le)
  · exact le_rfl

/-- The share of a duration is complete once the duration has passed, and not before. -/
theorem progress?_spec {duration : Value ℝ} (h : duration.IsNumber) {elapsed : ℝ}
    (helapsed : 0 ≤ elapsed) :
    ∃ share, progress? elapsed duration = .ok share ∧
      (Scalar.ofInt 1 ≤ share ↔ duration.amount ≤ elapsed) := by
  obtain ⟨n, hn⟩ := h
  rw [Value.amount_of_number hn]
  unfold progress?
  rw [hn]
  -- a duration that is not positive has always passed
  by_cases hpos : 0 < n.value
  · have habove : n.above (Scalar.ofInt 0) = true := by
      rw [Number.above_real, Scalar.ofInt_real, Int.cast_zero]
      exact decide_eq_true hpos
    refine ⟨Scalar.lesser (elapsed / n.value) (Scalar.ofInt 1), ?_, ?_⟩
    · show (if n.above (Scalar.ofInt 0) = true then
        (do return Scalar.lesser (elapsed / (← n.scalar?)) (Scalar.ofInt 1))
        else return Scalar.ofInt 1) = _
      rw [if_pos habove, n.scalar?_eq_value]
      rfl
    · rw [← one_le_div hpos]
      unfold Scalar.lesser
      split
      · next hlt =>
        rw [Scalar.ofInt_real, Int.cast_one] at hlt ⊢
        exact ⟨fun _ => hlt.le, fun _ => le_rfl⟩
      · rw [Scalar.ofInt_real, Int.cast_one]
  · have habove : ¬ n.above (Scalar.ofInt 0) = true := by
      rw [Number.above_real, Scalar.ofInt_real, Int.cast_zero, decide_eq_true_eq]
      exact hpos
    refine ⟨Scalar.ofInt 1, ?_, fun _ => (not_lt.mp hpos).trans helapsed, fun _ => le_rfl⟩
    show (if n.above (Scalar.ofInt 0) = true then
      (do return Scalar.lesser (elapsed / (← n.scalar?)) (Scalar.ofInt 1))
      else return Scalar.ofInt 1) = _
    rw [if_neg habove]
    rfl

variable {j : Joint} {start target since : ℝ}

theorem take_turn_of_le (h : cfg.motion.jointTime.IsNumber) (hsince : since ≤ scene.clock.now)
    (hle : cfg.motion.jointTime.amount ≤ scene.clock.now - since) :
    ∃ t, (turn j start target since).take cfg scene = .ok .done t := by
  obtain ⟨share, hshare, hdone⟩ := progress?_spec h (sub_nonneg.mpr hsince)
  refine ⟨scene.onStation (·.setJoint j (start + (target - start) * Trajectory.ease share)), ?_⟩
  unfold take
  show (Action.lift (progress? (scene.clock.now - since) cfg.motion.jointTime) >>= _ :
    Action ℝ (Scene ℝ) (Outcome ℝ)) scene = _
  rw [hshare]
  show (if Scalar.ofInt 1 ≤ share then pure .done else _ : Action ℝ (Scene ℝ) (Outcome ℝ)) _ = _
  rw [if_pos (hdone.mpr hle)]
  rfl

theorem take_turn_of_lt (h : cfg.motion.jointTime.IsNumber) (hsince : since ≤ scene.clock.now)
    (hlt : scene.clock.now - since < cfg.motion.jointTime.amount) :
    ∃ station, (turn j start target since).take cfg scene =
      .ok (.waits scene.clock.issued [turn j start target since])
        ⟨station, scene.clock.register .nextFrame⟩ := by
  obtain ⟨share, hshare, hdone⟩ := progress?_spec h (sub_nonneg.mpr hsince)
  refine ⟨scene.station.setJoint j (start + (target - start) * Trajectory.ease share), ?_⟩
  unfold take
  show (Action.lift (progress? (scene.clock.now - since) cfg.motion.jointTime) >>= _ :
    Action ℝ (Scene ℝ) (Outcome ℝ)) scene = _
  rw [hshare]
  show (if Scalar.ofInt 1 ≤ share then pure .done else _ : Action ℝ (Scene ℝ) (Outcome ℝ)) _ = _
  rw [if_neg (mt hdone.mp (not_le.mpr hlt))]
  rfl

theorem take_drive (hlinear : cfg.driving.maxLinear.IsNumber)
    (hangular : cfg.driving.maxAngular.IsNumber) (vx wz : ℝ) (scene : Scene ℝ) :
    ∃ t, (drive vx wz).take cfg scene = .ok .done t := by
  have hlimited : ∀ {limit : Value ℝ}, limit.IsNumber →
      ∀ v, ∃ n, Station.limited? limit v = .ok n := by
    rintro limit ⟨n, hn⟩ v
    unfold Station.limited?
    rw [hn]
    exact ⟨_, rfl⟩
  obtain ⟨x, hx⟩ := hlimited hlinear vx
  obtain ⟨z, hz⟩ := hlimited hangular wz
  have hset : ∃ station, Station.setVelocities cfg.driving vx wz (some scene.clock.now)
      scene.station = .ok () station := by
    unfold Station.setVelocities
    rw [hx, hz]
    exact ⟨_, rfl⟩
  obtain ⟨station, hset⟩ := hset
  have hon : Action.on Scene.station (fun scene station => { scene with station })
      (Station.setVelocities cfg.driving vx wz (some scene.clock.now)) scene =
        .ok () { scene with station } := by
    unfold Action.on
    rw [hset]
  exact ⟨_, run_bind hon⟩

end Step

end ArmRover
