import ArmRover.Proofs.Rover.Velocity

/-!
# One stretch of time for the rover

The watchdog and friction decide which velocities are left, the rover moves by them, and a sample of
them goes into the history. The velocities by which it moves, those that it has afterwards and
those of the sample are always the same ones. A fault can stop this between two of its parts.

* `Drive.Stale` — the watchdog has run out, `Drive.remaining` — what is left of a velocity.
* `Rover.driven` — a rover after it moved, `Drive.displace_cases`, `Station.addSample_cases`,
  `Drive.advance_cases` — the parts, each with what it leaves if it fails.
* `Drive.Advanced`, `Drive.advanced_of_advance` — what a stretch without a fault does.
-/

namespace ArmRover

open ArmRover.Action

variable {driving : Settings.Driving ℝ} {dt now : ℝ} {s t : Station ℝ}

/-! ### The watchdog -/

namespace Drive

/-- The last velocity command is older than the watchdog allows. -/
def Stale (driving : Settings.Driving ℝ) (r : Rover ℝ) (now : ℝ) : Prop :=
  ∃ last, r.lastCommand = some last ∧ driving.watchdog.amount < now - last

/-- A command that is too old stays so. -/
theorem Stale.mono {r : Rover ℝ} {now later : ℝ} (h : Stale driving r now) (hlater : now ≤ later) :
    Stale driving r later := by
  obtain ⟨last, hlast, hold⟩ := h
  exact ⟨last, hlast, by linarith⟩

theorem Stale.congr {r r' : Rover ℝ} (h : r'.lastCommand = r.lastCommand) :
    Stale driving r' now ↔ Stale driving r now := by
  unfold Stale
  rw [h]

theorem stale?_of_isNumber (h : driving.watchdog.IsNumber) (r : Rover ℝ) (now : ℝ) :
    ∃ stale, stale? driving r now = .ok stale := by
  obtain ⟨n, hn, -⟩ := Value.exists_number? h
  unfold stale?
  cases r.lastCommand with
  | none => exact ⟨false, rfl⟩
  | some last =>
    rw [hn]
    exact ⟨_, rfl⟩

theorem stale?_iff {r : Rover ℝ} {stale : Bool} (h : stale? driving r now = .ok stale) :
    stale = true ↔ Stale driving r now := by
  unfold stale? at h
  unfold Stale
  cases hlast : r.lastCommand with
  | none =>
    rw [hlast] at h
    cases h
    exact ⟨nofun, fun ⟨_, hnone, _⟩ => nomatch hnone⟩
  | some last =>
    rw [hlast] at h
    obtain ⟨n, hn, hbelow⟩ := bind_eq_ok.mp h
    cases hbelow
    rw [Number.below_real, decide_eq_true_iff, Value.amount_of_number hn]
    exact ⟨fun hold => ⟨last, rfl, hold⟩, fun ⟨_, hsome, hold⟩ => Option.some.inj hsome ▸ hold⟩

open Classical in
/-- What is left of a velocity after a stretch of time that ends now. -/
noncomputable def remaining (driving : Settings.Driving ℝ) (r : Rover ℝ) (dt now v : ℝ) : ℝ :=
  if Stale driving r now then 0 else kept driving dt v

theorem remaining_of_stale {r : Rover ℝ} (h : Stale driving r now) (dt v : ℝ) :
    remaining driving r dt now v = 0 := if_pos h

theorem remaining_of_not_stale {r : Rover ℝ} (h : ¬ Stale driving r now) (dt v : ℝ) :
    remaining driving r dt now v = kept driving dt v := if_neg h

theorem remaining_zero (r : Rover ℝ) (dt now : ℝ) : remaining driving r dt now 0 = 0 := by
  unfold remaining
  split
  · rfl
  · exact kept_zero driving dt

theorem abs_remaining_le (h : driving.Damped) (hdt : 0 ≤ dt) (r : Rover ℝ) (now v : ℝ) :
    |remaining driving r dt now v| ≤ |v| := by
  unfold remaining
  split
  · rw [abs_zero]
    exact abs_nonneg v
  · exact abs_kept_le h hdt v

theorem mul_remaining_nonneg (h : driving.Damped) (hdt : 0 ≤ dt) (r : Rover ℝ) (now v : ℝ) :
    0 ≤ v * remaining driving r dt now v := by
  unfold remaining
  split
  · rw [mul_zero]
  · exact mul_kept_nonneg h hdt v

end Drive

/-! ### The place -/

/-- The rover after it moved by its velocities, in the direction of the heading it had before. -/
noncomputable def Rover.driven (r : Rover ℝ) (vx wz dt : ℝ) : Rover ℝ :=
  { r with
    x := r.x + vx * Real.sin r.heading * dt
    z := r.z + vx * Real.cos r.heading * dt
    heading := r.heading + wz * dt
    height := if vx = 0 then r.height else .real r.height.amount }

theorem Rover.amount_height_driven (r : Rover ℝ) (vx wz dt : ℝ) :
    (r.driven vx wz dt).height.amount = r.height.amount := by
  unfold Rover.driven
  dsimp only
  split
  · rfl
  · exact Value.amount_of_number (Value.number?_number _)

theorem Rover.isNumber_height_driven {r : Rover ℝ} (h : r.height.IsNumber) (vx wz dt : ℝ) :
    (r.driven vx wz dt).height.IsNumber := by
  unfold Rover.driven
  dsimp only
  split
  · exact h
  · exact ⟨_, rfl⟩

namespace Drive

/-- Where a height is held, it is the one of plain data. -/
theorem amount_of_height? {v : Value ℝ} {height : ℝ} (h : height? v = .ok height) :
    height = v.amount := by
  unfold height? at h
  split at h
  · cases h
    show (Scalar.ofInt 0 : ℝ) / Scalar.ofInt 0 = 0
    simp
  · obtain ⟨n, hn, hvalue⟩ := bind_eq_ok.mp h
    rw [Value.amount_of_number hn]
    rw [Number.scalar?_eq_value] at hvalue
    exact (Except.ok.inj hvalue).symm

theorem height?_of_isNumber {v : Value ℝ} (h : v.IsNumber) : height? v = .ok v.amount := by
  unfold height?
  split
  · obtain ⟨n, hn⟩ := h
    cases hn
  · exact Value.scalar?_of_isNumber h

theorem form_ne_text_of_isNumber {v : Value ℝ} (h : v.IsNumber) : Rover.form v ≠ .text := by
  obtain ⟨n, hn⟩ := h
  cases v with
  | number m =>
    unfold Rover.form
    dsimp only
    split <;> nofun
  | bool b => nofun
  | _ => cases hn

/-- The second part of a move: from where the rover `r` was, ahead in its direction. -/
def goAhead {α : Type} [Scalar α] (vx dt : α) (r : Rover α) : Action α (Station α) Unit := do
  if !(vx == 0) then
    let (sin, cos) ← Action.lift (Scalar.sinCos? r.heading)
    if Rover.form r.height = .text then throw .wrongKind
    let height ← Action.lift (height? r.height)
    modify fun s => s.moveTo ⟨r.x + vx * sin * dt, height, r.z + vx * cos * dt⟩

theorem displace_eq {α : Type} [Scalar α] (vx wz dt : α) (s : Station α) :
    displace vx wz dt s = goAhead vx dt s.rover
      (if wz == 0 then s else s.turnTo (s.rover.heading + wz * dt)) := by
  unfold displace
  rw [run_get_bind]
  dsimp only
  cases wz == 0 <;> rfl

theorem goAhead_cases (vx dt : ℝ) (r : Rover ℝ) (s : Station ℝ) :
    (vx = 0 ∧ goAhead vx dt r s = .ok () s) ∨
      (vx ≠ 0 ∧ goAhead vx dt r s = .ok () (s.moveTo ⟨r.x + vx * Real.sin r.heading * dt,
        r.height.amount, r.z + vx * Real.cos r.heading * dt⟩)) ∨
      ¬ r.height.IsNumber ∧ ∃ fault, goAhead vx dt r s = .error fault s := by
  unfold goAhead
  by_cases hvx : vx = 0
  · rw [if_neg (by simp [hvx])]
    exact .inl ⟨hvx, rfl⟩
  right
  rw [if_pos (by simp [hvx]), Scalar.sinCos?_real, run_lift_bind]
  dsimp only
  by_cases hform : Rover.form r.height = .text
  · rw [if_pos hform]
    exact .inr ⟨fun h => form_ne_text_of_isNumber h hform, _, rfl⟩
  rw [if_neg hform]
  cases hheight : height? r.height with
  | error fault =>
    refine .inr ⟨fun h => ?_, fault, rfl⟩
    cases hheight.symm.trans (height?_of_isNumber h)
  | ok height =>
    rw [amount_of_height? hheight]
    exact .inl ⟨hvx, rfl⟩

/-- The rover moves, unless its height cannot be held; then it has only turned. -/
theorem displace_cases (vx wz dt : ℝ) (s : Station ℝ) :
    displace vx wz dt s = .ok () { s with rover := s.rover.driven vx wz dt } ∨
      ¬ s.rover.height.IsNumber ∧ ∃ fault,
        displace vx wz dt s = .error fault (s.turnTo (s.rover.heading + wz * dt)) := by
  -- without a turning velocity the heading is set to what it is
  have hturn : (if (wz == 0) = true then s else s.turnTo (s.rover.heading + wz * dt)) =
      s.turnTo (s.rover.heading + wz * dt) := by
    by_cases hwz : wz = 0
    · rw [if_pos (beq_iff_eq.mpr hwz), hwz, zero_mul, add_zero]
      rfl
    · exact if_neg (by simpa using hwz)
  rw [displace_eq]
  simp only [Scalar.beq_real, Scalar.zero_real, Scalar.mul_real, Scalar.add_real]
  rw [hturn]
  rcases goAhead_cases vx dt s.rover (s.turnTo (s.rover.heading + wz * dt)) with
    ⟨hvx, hrun⟩ | ⟨hvx, hrun⟩ | hfail
  · left
    rw [hrun]
    unfold Rover.driven
    rw [if_pos hvx, hvx]
    simp [Station.turnTo]
  · left
    rw [hrun]
    unfold Rover.driven
    rw [if_neg hvx]
    rfl
  · exact .inr hfail

end Drive

/-! ### The history -/

/-- A sample of the velocities. -/
def Rover.sample (r : Rover ℝ) (now : ℝ) : Sample ℝ := ⟨now, r.vx, r.wz⟩

/-- The rover with a sample of its velocities at the end of its history. -/
def Rover.sampled (r : Rover ℝ) (now : ℝ) : Rover ℝ :=
  { r with history := r.history ++ [r.sample now] }

/-- A sample joins the history, and then the samples that are too old leave it from its front, if
the window is a number. -/
theorem Station.addSample_cases (now : ℝ) (window : Value ℝ) (s : Station ℝ) :
    Station.addSample now window s = .ok () { s with
      rover := { s.rover.sampled now with
        history := (s.rover.sampled now).history.dropWhile
          fun sample => decide (sample.time < now - window.amount) } } ∨
      ¬ window.IsNumber ∧ ∃ fault,
        Station.addSample now window s = .error fault { s with rover := s.rover.sampled now } := by
  by_cases h : window.IsNumber
  · left
    unfold Station.addSample
    rw [Value.scalar?_of_isNumber h]
    rfl
  · right
    refine ⟨h, ?_⟩
    unfold Station.addSample Value.scalar?
    cases hrun : window.number? with
    | ok n => exact absurd ⟨n, hrun⟩ h
    | error fault => exact ⟨fault, rfl⟩

/-! ### The whole stretch -/

namespace Drive

theorem moving_iff (vx wz : Number ℝ) : moving vx wz = true ↔ vx.value ≠ 0 ∨ wz.value ≠ 0 := by
  unfold moving
  rw [Bool.or_eq_true, Bool.not_eq_true', Bool.not_eq_true', ← Bool.not_eq_true,
    ← Bool.not_eq_true, Number.isZero_real, Number.isZero_real]

/-- The velocities that are left of those the rover had. -/
structure Slowed (driving : Settings.Driving ℝ) (dt now : ℝ) (r : Rover ℝ) (vx wz : Number ℝ) :
    Prop where
  vx : vx.value = remaining driving r dt now r.vx.value
  wz : wz.value = remaining driving r dt now r.wz.value

/-- Some velocities are left, and the rover moves by them; or one of the least speed and the
watchdog is of no use, and nothing happens at all. -/
theorem advance_cases (h : driving.Damped) (hdt : 0 ≤ dt) (now : ℝ) (hactive : s.active = .rover)
    (hwithin : s.rover.Within driving) :
    (∃ vx wz, Slowed driving dt now s.rover vx wz ∧ advance driving dt now s =
        (do
          displace vx.value wz.value dt
          Station.addSample now driving.historyTime : Action ℝ (Station ℝ) Unit)
          { s with rover := { s.rover with vx, wz } }) ∨
      ¬ (driving.leastSpeed.IsNumber ∧ driving.watchdog.IsNumber) ∧
        ∃ fault, advance driving dt now s = .error fault s := by
  unfold advance
  rw [run_get_bind, if_neg (not_not_intro hactive)]
  cases hstale : stale? driving s.rover now with
  | error fault =>
    refine .inr ⟨fun hnumbers => ?_, fault, rfl⟩
    obtain ⟨stale, hrun⟩ := stale?_of_isNumber hnumbers.2 s.rover now
    cases hstale.symm.trans hrun
  | ok stale =>
  rw [run_lift_bind]
  dsimp only
  have hiff := stale?_iff hstale
  cases stale with
  | true =>
    have hold := hiff.mp rfl
    obtain ⟨m, hm, hmzero⟩ := Station.exists_limited?_of_abs_le h.linear
      (abs_zero.trans_le h.linear_nonneg)
    obtain ⟨n, hn, hnzero⟩ := Station.exists_limited?_of_abs_le h.angular
      (abs_zero.trans_le h.angular_nonneg)
    refine .inl ⟨m, n, ⟨?_, ?_⟩, ?_⟩
    · rw [hmzero, remaining_of_stale hold]
    · rw [hnzero, remaining_of_stale hold]
    · have hstill : ¬ moving (.real 0 : Number ℝ) (.real 0) = true := by
        rw [moving_iff]
        exact fun hmove => hmove.elim (fun hne => hne rfl) fun hne => hne rfl
      simp only [if_true, Scalar.zero_real]
      rw [run_bind (Station.setVelocities_of_limited? hm hn none s), if_neg hstill, pure_bind,
        hmzero, hnzero]
      rfl
  | false =>
    have hfresh : ¬ Stale driving s.rover now := fun hold => nomatch hiff.mpr hold
    rw [if_neg Bool.false_ne_true, if_neg Bool.false_ne_true, if_neg Bool.false_ne_true]
    by_cases hmoving : moving s.rover.vx s.rover.wz = true
    · rw [if_pos hmoving]
      by_cases hleast : driving.leastSpeed.IsNumber
      · left
        obtain ⟨m, n, hm, hn, hrun⟩ := slowed?_of_isNumber h hleast hdt hwithin.vx hwithin.wz s
        rw [run_bind hrun]
        refine ⟨m, n, ⟨?_, ?_⟩, rfl⟩
        · rw [hm, remaining_of_not_stale hfresh]
        · rw [hn, remaining_of_not_stale hfresh]
      · obtain ⟨fault, hrun⟩ :=
          slowed?_of_not_isNumber h hleast hdt s.rover.vx s.rover.wz s
        exact .inr ⟨fun hnumbers => hleast hnumbers.1, fault, run_bind_error hrun⟩
    · obtain ⟨hvx, hwz⟩ : s.rover.vx.value = 0 ∧ s.rover.wz.value = 0 := by
        rw [moving_iff] at hmoving
        tauto
      rw [if_neg hmoving, pure_bind, Scalar.zero_real]
      refine .inl ⟨s.rover.vx, s.rover.wz, ⟨?_, ?_⟩, ?_⟩
      · rw [hvx, remaining_zero]
      · rw [hwz, remaining_zero]
      · rw [hvx, hwz]

/-- What a stretch of time without a fault does to the rover: it moves by the velocities that it has
at its end, and those are the ones of the sample. -/
structure Advanced (driving : Settings.Driving ℝ) (dt now : ℝ) (r r' : Rover ℝ) : Prop where
  vx : r'.vx.value = remaining driving r dt now r.vx.value
  wz : r'.wz.value = remaining driving r dt now r.wz.value
  lastCommand : r'.lastCommand = r.lastCommand
  heading : r'.heading = r.heading + r'.wz.value * dt
  x : r'.x = r.x + r'.vx.value * Real.sin r.heading * dt
  z : r'.z = r.z + r'.vx.value * Real.cos r.heading * dt
  height : r'.height.amount = r.height.amount
  height_isNumber : r.height.IsNumber → r'.height.IsNumber
  history : r'.history = (r.history ++ [r'.sample now]).dropWhile
    fun sample => decide (sample.time < now - driving.historyTime.amount)

theorem Advanced.within {r r' : Rover ℝ} (h : Advanced driving dt now r r')
    (hdamped : driving.Damped) (hdt : 0 ≤ dt) (hwithin : r.Within driving) : r'.Within driving where
  vx := by
    rw [h.vx]
    exact (abs_remaining_le hdamped hdt r now _).trans hwithin.vx
  wz := by
    rw [h.wz]
    exact (abs_remaining_le hdamped hdt r now _).trans hwithin.wz

/-- The rover moves by what is left of its velocities, and its history is brought up to date. -/
theorem Slowed.advanced {r : Rover ℝ} {vx wz : Number ℝ} (h : Slowed driving dt now r vx wz) :
    Advanced driving dt now r
      { (Rover.driven { r with vx, wz } vx.value wz.value dt).sampled now with
        history := (r.history ++ [Rover.sample { r with vx, wz } now]).dropWhile
          fun sample => decide (sample.time < now - driving.historyTime.amount) } where
  vx := h.vx
  wz := h.wz
  lastCommand := rfl
  heading := rfl
  x := rfl
  z := rfl
  height := Rover.amount_height_driven { r with vx, wz } vx.value wz.value dt
  height_isNumber hheight :=
    Rover.isNumber_height_driven (r := { r with vx, wz }) hheight vx.value wz.value dt
  history := rfl

theorem advanced_of_advance (h : driving.Damped) (hdt : 0 ≤ dt) (hactive : s.active = .rover)
    (hwithin : s.rover.Within driving) (hrun : advance driving dt now s = .ok () t) :
    Advanced driving dt now s.rover t.rover ∧ t.active = .rover := by
  rcases advance_cases h hdt now hactive hwithin with
    ⟨vx, wz, hslowed, hadvance⟩ | ⟨-, fault, hfault⟩
  · rw [hadvance] at hrun
    obtain ⟨_, u, hdisplace, hsample⟩ := exists_of_bind_eq_ok hrun
    rcases displace_cases vx.value wz.value dt { s with rover := { s.rover with vx, wz } } with
      hd | ⟨-, fault, hd⟩
    · cases hd.symm.trans hdisplace
      let moved := Rover.driven { s.rover with vx, wz } vx.value wz.value dt
      rcases Station.addSample_cases now driving.historyTime { s with rover := moved } with
        ha | ⟨-, fault, ha⟩
      · cases ha.symm.trans hsample
        exact ⟨hslowed.advanced, hactive⟩
      · cases ha.symm.trans hsample
    · cases hd.symm.trans hdisplace
  · cases hfault.symm.trans hrun

/-- Nothing can fail where all that is asked for is a number. -/
theorem exists_advance (h : driving.Damped) (hleast : driving.leastSpeed.IsNumber)
    (hwatchdog : driving.watchdog.IsNumber) (hwindow : driving.historyTime.IsNumber) (hdt : 0 ≤ dt)
    (now : ℝ) (hactive : s.active = .rover) (hwithin : s.rover.Within driving)
    (hheight : s.rover.height.IsNumber) : ∃ t, advance driving dt now s = .ok () t := by
  rcases advance_cases h hdt now hactive hwithin with ⟨vx, wz, -, hadvance⟩ | ⟨hnot, -⟩
  · rw [hadvance]
    rcases displace_cases vx.value wz.value dt { s with rover := { s.rover with vx, wz } } with
      hd | ⟨hnot, -⟩
    · rw [run_bind hd]
      rcases Station.addSample_cases now driving.historyTime { s with
        rover := Rover.driven { s.rover with vx, wz } vx.value wz.value dt } with ha | ⟨hnot, -⟩
      · exact ⟨_, ha⟩
      · exact absurd hwindow hnot
    · exact absurd hheight hnot
  · exact absurd ⟨hleast, hwatchdog⟩ hnot

end Drive

end ArmRover
