import ArmRover.Proofs.Rover.Advance
import ArmRover.Proofs.Settings.Standard

/-!
# The pose is the integral of the telemetry

A rover is driven: time passes for it, and between two stretches of time somebody sets its
velocities. Where it stands and looks in the end is told by the samples that went into its history.

* `Drive.Event` — a stretch of time or a command, `Drive.run` — many of them, with one `Drive.Leg`
  for each stretch of time.
* `Station.Roving` — a rover that can be driven, `Drive.roving_of_advance`,
  `Drive.roving_of_setVelocities` — one event of a run.
* `Drive.exists_run` — a run answers, `Drive.integrates_of_run` — what it does to the pose, and both
  together in `Drive.pose_integrates_telemetry`.
-/

namespace ArmRover.Drive

open ArmRover.Action

/-- What happens to a rover that is driven. -/
inductive Event (α : Type) where
  /-- A stretch of time passes, which ends now. -/
  | update (dt now : α)
  /-- The velocities are set, with the time of the command if it has one. -/
  | command (vx wz : α) (time : Option α)

/-- How long a stretch of time takes, and when it ends. -/
def Event.update? {α : Type} : Event α → Option (α × α)
  | update dt now => some (dt, now)
  | command .. => none

/-- A stretch of time of a run: the rover before it, how long it took and when it ended, and the
rover after it. -/
structure Leg (α : Type) where
  start : Rover α
  dt : α
  now : α
  finish : Rover α

/-- The sample of the velocities at the end. -/
def Leg.sample (l : Leg ℝ) : Sample ℝ := l.finish.sample l.now

/-- Let events happen one after the other, up to the first fault. The answer is the stretches of
time. -/
def run {α : Type} [Scalar α] (driving : Settings.Driving α) :
    List (Event α) → Action α (Station α) (List (Leg α))
  | [] => return []
  | .update dt now :: rest => do
    let start := (← get).rover
    advance driving dt now
    let finish := (← get).rover
    return ⟨start, dt, now, finish⟩ :: (← run driving rest)
  | .command vx wz time :: rest => do
    Station.setVelocities driving vx wz time
    run driving rest

/-! ### One event of a run -/

section Events

variable {α : Type} [Scalar α] {driving : Settings.Driving α} {events : List (Event α)}
  {legs : List (Leg α)} {s t u : Station α} {dt now vx wz : α} {time : Option α}

theorem run_update (hadvance : advance driving dt now s = .ok () u)
    (hrun : run driving events u = .ok legs t) :
    run driving (.update dt now :: events) s = .ok (⟨s.rover, dt, now, u.rover⟩ :: legs) t := by
  unfold run
  rw [run_get_bind, run_bind hadvance, run_get_bind]
  exact run_bind hrun

theorem of_run_update (h : run driving (.update dt now :: events) s = .ok legs t) :
    ∃ u later, advance driving dt now s = .ok () u ∧ run driving events u = .ok later t ∧
      legs = ⟨s.rover, dt, now, u.rover⟩ :: later := by
  unfold run at h
  rw [run_get_bind] at h
  obtain ⟨_, u, hadvance, h⟩ := exists_of_bind_eq_ok h
  rw [run_get_bind] at h
  obtain ⟨later, t', hrun, h⟩ := exists_of_bind_eq_ok h
  cases h
  exact ⟨u, later, hadvance, hrun, rfl⟩

theorem of_run_command (h : run driving (.command vx wz time :: events) s = .ok legs t) :
    ∃ u, Station.setVelocities driving vx wz time s = .ok () u ∧
      run driving events u = .ok legs t := by
  unfold run at h
  obtain ⟨_, u, hset, h⟩ := exists_of_bind_eq_ok h
  exact ⟨u, hset, h⟩

end Events

/-! ### A rover that can be driven -/

end ArmRover.Drive

namespace ArmRover

open ArmRover.Action

/-- The rover is active, and its velocities are within their limits. -/
structure Station.Roving (driving : Settings.Driving ℝ) (s : Station ℝ) : Prop where
  active : s.active = .rover
  within : s.rover.Within driving

namespace Drive

variable {driving : Settings.Driving ℝ} {events : List (Event ℝ)} {legs : List (Leg ℝ)}
  {s t : Station ℝ} {dt now : ℝ}

theorem roving_of_advance (h : driving.Damped) (hdt : 0 ≤ dt) (hs : s.Roving driving)
    (hrun : advance driving dt now s = .ok () t) :
    Advanced driving dt now s.rover t.rover ∧ t.Roving driving := by
  obtain ⟨hadvanced, hactive⟩ := advanced_of_advance h hdt hs.active hs.within hrun
  exact ⟨hadvanced, hactive, hadvanced.within h hdt hs.within⟩

/-- A command changes the velocities and its own time, and leaves a rover that can be driven. -/
theorem roving_of_setVelocities (h : driving.Bounded) (hs : s.Roving driving) {vx wz : ℝ}
    {time : Option ℝ} (hrun : Station.setVelocities driving vx wz time s = .ok () t) :
    (∃ m n lastCommand, t.rover = { s.rover with vx := m, wz := n, lastCommand }) ∧
      t.Roving driving := by
  obtain ⟨m, n, hset, hm, hn⟩ := Station.setVelocities_of_bounded h vx wz time s
  cases hset.symm.trans hrun
  exact ⟨⟨m, n, _, rfl⟩, hs.active, ⟨hm, hn⟩⟩

/-! ### Runs -/

/-- A run answers where all that is asked for is a number. -/
theorem exists_run (h : driving.Damped) (hleast : driving.leastSpeed.IsNumber)
    (hwatchdog : driving.watchdog.IsNumber) (hwindow : driving.historyTime.IsNumber)
    (hevents : ∀ dt now, .update dt now ∈ events → 0 ≤ dt) (hs : s.Roving driving)
    (hheight : s.rover.height.IsNumber) : ∃ legs t, run driving events s = .ok legs t := by
  induction events generalizing s with
  | nil => exact ⟨[], s, rfl⟩
  | cons event rest ih =>
    have hrest : ∀ dt now, .update dt now ∈ rest → 0 ≤ dt := fun dt now hmem =>
      hevents dt now (List.mem_cons_of_mem _ hmem)
    cases event with
    | update dt now =>
      have hdt := hevents dt now List.mem_cons_self
      obtain ⟨u, hu⟩ :=
        exists_advance h hleast hwatchdog hwindow hdt now hs.active hs.within hheight
      obtain ⟨hadvanced, hnext⟩ := roving_of_advance h hdt hs hu
      obtain ⟨legs, t, hrun⟩ := ih hrest hnext (hadvanced.height_isNumber hheight)
      exact ⟨_, t, run_update hu hrun⟩
    | command vx wz time =>
      obtain ⟨m, n, hset, -⟩ := Station.setVelocities_of_bounded h.toBounded vx wz time s
      obtain ⟨legs, t, hrun⟩ := ih hrest (roving_of_setVelocities h.toBounded hs hset).2 hheight
      exact ⟨legs, t, (run_bind hset).trans hrun⟩

/-- The rover gets from one pose to another by the velocities of samples, one for each stretch of
time, each in the direction that the rover had before. -/
structure Integrates (legs : List (Leg ℝ)) (r r' : Rover ℝ) : Prop where
  heading : r'.heading = r.heading + (legs.map fun l => l.sample.wz.value * l.dt).sum
  x : r'.x = r.x + (legs.map fun l => l.sample.vx.value * Real.sin l.start.heading * l.dt).sum
  z : r'.z = r.z + (legs.map fun l => l.sample.vx.value * Real.cos l.start.heading * l.dt).sum
  height : r'.height.amount = r.height.amount
  height_isNumber : r.height.IsNumber → r'.height.IsNumber

theorem Integrates.refl (r : Rover ℝ) : Integrates [] r r := by
  constructor <;> simp

theorem Integrates.cons {r r₁ r' : Rover ℝ} (h : Advanced driving dt now r r₁)
    (hrest : Integrates legs r₁ r') : Integrates (⟨r, dt, now, r₁⟩ :: legs) r r' where
  heading := by
    rw [hrest.heading, h.heading, List.map_cons, List.sum_cons, add_assoc]
    rfl
  x := by
    rw [hrest.x, h.x, List.map_cons, List.sum_cons, add_assoc]
    rfl
  z := by
    rw [hrest.z, h.z, List.map_cons, List.sum_cons, add_assoc]
    rfl
  height := hrest.height.trans h.height
  height_isNumber hheight := hrest.height_isNumber (h.height_isNumber hheight)

/-- A command has no part in the pose. -/
theorem Integrates.of_command {r r' : Rover ℝ} {m n : Number ℝ} {lastCommand : Option ℝ}
    (h : Integrates legs { r with vx := m, wz := n, lastCommand } r') : Integrates legs r r' :=
  ⟨h.heading, h.x, h.z, h.height, h.height_isNumber⟩

/-- The sample of a stretch of time joins the history, from which the old ones are dropped. -/
def Leg.Recorded (driving : Settings.Driving ℝ) (l : Leg ℝ) : Prop :=
  l.finish.history = (l.start.history ++ [l.sample]).dropWhile
    fun sample => decide (sample.time < l.now - driving.historyTime.amount)

/-- Every stretch of time leaves a sample, and the samples tell how the pose changes. -/
theorem integrates_of_run (h : driving.Damped)
    (hevents : ∀ dt now, .update dt now ∈ events → 0 ≤ dt) (hs : s.Roving driving)
    (hrun : run driving events s = .ok legs t) :
    legs.map (fun l => (l.dt, l.now)) = events.filterMap Event.update? ∧
      (∀ l ∈ legs, l.Recorded driving) ∧ Integrates legs s.rover t.rover := by
  induction events generalizing s legs with
  | nil =>
    cases hrun
    exact ⟨rfl, List.forall_mem_nil _, .refl _⟩
  | cons event rest ih =>
    have hrest : ∀ dt now, .update dt now ∈ rest → 0 ≤ dt := fun dt now hmem =>
      hevents dt now (List.mem_cons_of_mem _ hmem)
    cases event with
    | update dt now =>
      obtain ⟨u, later, hadvance, hlater, rfl⟩ := of_run_update hrun
      obtain ⟨hadvanced, hu⟩ :=
        roving_of_advance h (hevents dt now List.mem_cons_self) hs hadvance
      obtain ⟨htimes, hrecorded, hintegrates⟩ := ih hrest hu hlater
      refine ⟨congrArg (List.cons (dt, now)) htimes, ?_, .cons hadvanced hintegrates⟩
      exact List.forall_mem_cons.mpr ⟨hadvanced.history, hrecorded⟩
    | command vx wz time =>
      obtain ⟨u, hset, hrun⟩ := of_run_command hrun
      obtain ⟨⟨m, n, lastCommand, hrover⟩, hu⟩ := roving_of_setVelocities h.toBounded hs hset
      obtain ⟨htimes, hrecorded, hintegrates⟩ := ih hrest hu hrun
      rw [hrover] at hintegrates
      exact ⟨htimes, hrecorded, hintegrates.of_command⟩

/-- Where friction leaves a share and the velocities have limits, whatever commands come between:
each stretch of time adds one sample of the velocities to the history, and the pose in the end is
the one at the start and the sum of the samples over their times, each in the direction that the
rover had before. The height stays. Nothing fails where all that is asked for is a number. -/
theorem pose_integrates_telemetry (h : driving.Damped)
    (hevents : ∀ dt now, .update dt now ∈ events → 0 ≤ dt) (hs : s.Roving driving) :
    (driving.leastSpeed.IsNumber → driving.watchdog.IsNumber → driving.historyTime.IsNumber →
        s.rover.height.IsNumber → ∃ legs t, run driving events s = .ok legs t) ∧
      ∀ legs t, run driving events s = .ok legs t →
        legs.map (fun l => (l.dt, l.now)) = events.filterMap Event.update? ∧
        (∀ l ∈ legs, l.Recorded driving) ∧ Integrates legs s.rover t.rover :=
  ⟨fun hleast hwatchdog hwindow => exists_run h hleast hwatchdog hwindow hevents hs,
    fun _ _ hrun => integrates_of_run h hevents hs hrun⟩

/-- A rover that is sent ahead on a curve, and then back on a straight line. -/
theorem pose_integrates_telemetry_there_and_back :
    let driving : Settings.Driving ℝ := Settings.standard.driving
    let s : Station ℝ := { Station.new Settings.standard.toRig with active := .rover }
    ∃ legs t, run driving [.command 1 (1 / 2) (some 0), .update (1 / 4) (1 / 4),
        .command (-1) 0 (some (1 / 4)), .update (1 / 2) (3 / 4)] s = .ok legs t ∧
      legs.map (fun l => (l.dt, l.now)) = [(1 / 4, 1 / 4), (1 / 2, 3 / 4)] ∧
      Integrates legs s.rover t.rover := by
  intro driving s
  have hevents : ∀ dt now : ℝ, Event.update dt now ∈
      [.command 1 (1 / 2) (some 0), .update (1 / 4) (1 / 4), .command (-1) 0 (some (1 / 4)),
        .update (1 / 2) (3 / 4)] → 0 ≤ dt := by
    intro dt now hmem
    simp only [List.mem_cons, Event.update.injEq, reduceCtorEq, List.not_mem_nil, or_false,
      false_or] at hmem
    rcases hmem with ⟨rfl, -⟩ | ⟨rfl, -⟩ <;> norm_num
  have hs : s.Roving driving :=
    ⟨rfl, Rover.within_home _ Settings.damped_standard.toBounded⟩
  obtain ⟨hanswers, hall⟩ := pose_integrates_telemetry Settings.damped_standard hevents hs
  obtain ⟨legs, t, hrun⟩ := hanswers ⟨_, rfl⟩ ⟨_, rfl⟩ ⟨_, rfl⟩ ⟨_, rfl⟩
  obtain ⟨htimes, -, hpose⟩ := hall legs t hrun
  exact ⟨legs, t, hrun, htimes, hpose⟩

end Drive

end ArmRover
