import ArmRover.Proofs.Map.Truth
import ArmRover.Proofs.Simulation.Past
import ArmRover.Proofs.Simulation.Single

/-!
# Readings and measurements

Going home stores a distance that nobody has measured, and does not open the gate of the sensor.
Readings are measurements nevertheless if the pause after that is at least as long as the interval
of the sensor, which then has looked again before the first command begins.

* `Simulation.outlook_of_pass` — what the sensor does in a frame.
* `Simulation.Settling` — the pause after the rover went home.
* `Simulation.MeasuredIn` — a distance that was measured in a frame of a run,
  `Simulation.Watched` — what holds after each frame.
* `Simulation.runToEnd_boxAhead` — what a rover in front of a box reads, by the interval of its
  sensor.
* `Simulation.readings_measured` — all readings of a run.
-/

namespace ArmRover

open ArmRover.Action

theorem Sensors.exists_of_fresh {last : Option ℝ} {now interval : ℝ}
    (h : fresh? last now (.real interval) = .ok true) :
    ∃ time, last = some time ∧ now - time < interval := by
  cases last with
  | none => cases h
  | some time =>
    have habove : (Number.real interval).above (now - time) = true := Except.ok.inj h
    rw [Number.above_real, decide_eq_true_eq] at habove
    exact ⟨time, rfl, habove⟩

theorem Sensors.Measured.ne_null {α : Type} [Scalar α] {senses : Settings.Senses α}
    {world : World α} {rover : Rover α} {distance : Value α}
    (h : Measured senses world rover distance) : distance ≠ .null := by
  obtain ⟨_, d, -, -, rfl⟩ := h
  exact nofun

namespace Simulation

/-- The first half of a frame without a fault leaves the stored distance alone while the sensor is
fresh, and otherwise measures it. -/
theorem outlook_of_pass {α : Type} [Scalar α] {cfg : Settings α} {dt : α} {s t : Simulation α}
    (h : pass cfg dt s = .ok () t) (hactive : s.scene.station.active = .rover) :
    (Sensors.fresh? s.scene.station.gates.distance t.scene.clock.now
          (.real cfg.senses.interval) = .ok true ∧
        t.scene.station.gates.distance = s.scene.station.gates.distance ∧
        t.scene.station.rover.distance = s.scene.station.rover.distance) ∨
      (Sensors.fresh? s.scene.station.gates.distance t.scene.clock.now
          (.real cfg.senses.interval) = .ok false ∧
        t.scene.station.gates.distance = some t.scene.clock.now ∧
        Sensors.Measured cfg.senses s.world t.scene.station.rover
          t.scene.station.rover.distance) := by
  have hlasting : Station.Lasting fun u : Station α => u.active = .rover ∧
      u.gates.distance = s.scene.station.gates.distance ∧
      u.rover.distance = s.scene.station.rover.distance :=
    ⟨fun _ _ _ _ hu => hu, fun _ _ _ _ hu => hu,
      fun _ _ heq hu => ⟨hu.1, hu.2.1, heq.trans hu.2.2⟩⟩
  have hclock : t.scene.clock.now = (s.scene.clock.advance dt).now :=
    congrArg Clock.now (passed_of_pass h).clock
  rw [hclock]
  obtain ⟨u, ⟨hrover, hgate, hdistance⟩, hrefresh⟩ :=
    exists_refresh_of_pass hlasting h ⟨hactive, rfl, rfl⟩
  rcases Sensors.outlook_of_refresh hrefresh hrover with
    ⟨hfresh, houtlook⟩ | hlook
  · obtain ⟨hkept, hgates⟩ := Prod.mk.inj (Prod.mk.inj houtlook).2
    rw [hgate] at hfresh
    exact .inl ⟨hfresh, hgates.trans hgate, hkept.trans hdistance⟩
  · rw [hgate] at hlook
    exact .inr hlook

variable {cfg : Settings ℝ} {dt : ℝ} {s t u : Simulation ℝ} {n : Nat}

theorem frames_succ (hpass : pass cfg dt (s.frames cfg dt n) = .ok () u) :
    s.frames cfg dt (n + 1) = u.serve cfg := by
  rw [frames_add, frames_succ_of_pass hpass, frames]

theorem begun_succ (hpass : pass cfg dt (s.frames cfg dt n) = .ok () u) :
    s.begun cfg dt (n + 1) = s.begun cfg dt n ++ u.begunServing cfg := by
  rw [begun_add, begun_succ_of_pass hpass, begun, List.append_nil]

theorem active_serve (cfg : Settings ℝ) (s : Simulation ℝ) :
    (s.serve cfg).scene.station.active = s.scene.station.active :=
  serve_preserves cfg (P := fun t => t.station.active = s.scene.station.active) (fun _ h => h)
    (preserves_active_begin cfg _) (fun _ => preserves_active_run cfg _ _ _ _) rfl

/-! ### The pause after the rover went home -/

/-- A program sleeps after it brought the rover home at the time `first`, and the sensor has not
looked since. -/
structure Settling (cfg : Settings ℝ) (dt first : ℝ) (s : Simulation ℝ) : Prop where
  asleep : ∃ home rest w j, Asleep home dt first rest w j s ∧
    w.due = .time (first + cfg.pauses.reset.amount)
  gate : ∃ last ≤ first, s.scene.station.gates.distance = some last

/-- A pause that is at least as long as the interval of the sensor does not end before the sensor
looks. -/
theorem Settling.pass {first : ℝ} (h : Settling cfg dt first s)
    (hlong : cfg.senses.interval + Clock.slack ≤ cfg.pauses.reset.amount)
    (hactive : s.scene.station.active = .rover) (hpass : Simulation.pass cfg dt s = .ok () u) :
    (Settling cfg dt first u ∧ u.serve cfg = u ∧ u.begunServing cfg = []) ∨
      (u.scene.station.gates.distance = some u.scene.clock.now ∧
        Sensors.Measured cfg.senses s.world u.scene.station.rover
          u.scene.station.rover.distance) := by
  obtain ⟨⟨home, rest, w, j, hasleep, hdue⟩, last, hlast, hgate⟩ := h
  rcases outlook_of_pass hpass hactive with ⟨hfresh, hkept, -⟩ | ⟨-, hlook⟩
  · left
    obtain ⟨time, htime, hrecent⟩ := Sensors.exists_of_fresh hfresh
    have heq : last = time := Option.some.inj (hgate.symm.trans htime)
    have hu := hasleep.pass hpass
    have hnot : ¬ w.due.Met (first + (j + 1 : Nat) * dt) (j + 1) := by
      rw [← hu.now, hdue]
      show ¬ first + cfg.pauses.reset.amount - Clock.slack ≤ u.scene.clock.now
      linarith
    obtain ⟨hserve, hbegun⟩ := hu.serve_eq cfg
    obtain ⟨hsettle, hnone⟩ := hu.settle_early cfg hnot (rest.sleepsLeft cfg + 2 + 1)
    exact ⟨⟨⟨home, rest, w, j + 1, hu, hdue⟩, last, hlast, hkept.trans hgate⟩,
      hserve.trans hsettle, hbegun.trans hnone⟩
  · exact .inr hlook

/-- The sleep of a program in its first frame is the pause after the rover went home, if the sensor
has looked at no time to come. -/
theorem settling_of_fresh {commands : List (Command ℝ)}
    (hjob : s.job = some (.fresh commands)) (hwaits : s.scene.clock.waits = [])
    (hactive : s.scene.station.active = .rover) (hpast : s.scene.LooksBack) (hdt : 0 < dt)
    (hreset : Clock.slack < cfg.pauses.reset.amount) (hpass : pass cfg dt s = .ok () u) :
    Settling cfg dt u.scene.clock.now (u.serve cfg) ∧ u.begunServing cfg = [] ∧
      Accounts [] (u.serve cfg) := by
  obtain ⟨w, hdue, hasleep, hstation, hnone⟩ := asleep_of_fresh hjob hwaits hreset hpass
  refine ⟨⟨⟨_, _, w, 0, hasleep, hdue⟩, ?_⟩, hnone, ?_⟩
  · rw [hstation, Station.gates_home]
    rcases outlook_of_pass hpass hactive with ⟨hfresh, hkept, -⟩ | ⟨-, hlook, -⟩
    · obtain ⟨last, hlast, -⟩ := Sensors.exists_of_fresh hfresh
      have hadvance : u.scene.clock.now = s.scene.clock.now + dt :=
        congrArg Clock.now (passed_of_pass hpass).clock
      exact ⟨last, by linarith [hpast last hlast], hkept.trans hlast⟩
    · exact ⟨_, le_rfl, hlook⟩
  · unfold Accounts
    rw [hasleep.job]
    rfl

/-! ### The frames of a run -/

/-- The distance that is stored in a scene was measured in the frame `j` of a run, after the one in
which the program brought the rover home, and at most one interval of the sensor ago. -/
structure MeasuredIn (cfg : Settings ℝ) (dt : ℝ) (s : Simulation ℝ) (j : Nat)
    (scene : Scene ℝ) : Prop where
  late : 2 ≤ j
  past : (s.frames cfg dt j).scene.clock.now ≤ scene.clock.now
  recent : scene.clock.now - (s.frames cfg dt j).scene.clock.now ≤ cfg.senses.interval
  measured : Sensors.Measured cfg.senses s.world (s.frames cfg dt j).scene.station.rover
    scene.station.rover.distance

theorem MeasuredIn.congr {j : Nat} {scene scene' : Scene ℝ} (h : MeasuredIn cfg dt s j scene)
    (hnow : scene'.clock.now = scene.clock.now)
    (hdistance : scene'.station.rover.distance = scene.station.rover.distance) :
    MeasuredIn cfg dt s j scene' where
  late := h.late
  past := hnow ▸ h.past
  recent := hnow ▸ h.recent
  measured := hdistance ▸ h.measured

/-- What holds after each frame of a run, from the first one on. -/
structure Watched (cfg : Settings ℝ) (dt : ℝ) (s : Simulation ℝ) (n : Nat) : Prop where
  active : (s.frames cfg dt n).scene.station.active = .rover
  world : (s.frames cfg dt n).world = s.world
  accounts : Accounts (s.begun cfg dt n) (s.frames cfg dt n)
  begun : ∀ entry ∈ s.begun cfg dt n, ∃ j ≤ n, MeasuredIn cfg dt s j entry.2
  /-- What is stored was measured, or the program has not come to its first command. -/
  stored : (∃ first, Settling cfg dt first (s.frames cfg dt n)) ∨
    ∃ j ≤ n, (s.frames cfg dt n).scene.station.gates.distance =
        some (s.frames cfg dt j).scene.clock.now ∧
      MeasuredIn cfg dt s j (s.frames cfg dt n).scene

/-- The sensor looks, or what it stored is not older than its interval. -/
theorem Watched.exists_measuredIn (h : Watched cfg dt s n) (hn : 1 ≤ n) (hdt : 0 < dt)
    (hinterval : 0 ≤ cfg.senses.interval)
    (hlong : cfg.senses.interval + Clock.slack ≤ cfg.pauses.reset.amount)
    (hpass : pass cfg dt (s.frames cfg dt n) = .ok () u) :
    ((∃ first, Settling cfg dt first u) ∧ u.serve cfg = u ∧ u.begunServing cfg = []) ∨
      ∃ j ≤ n + 1, u.scene.station.gates.distance = some (s.frames cfg dt j).scene.clock.now ∧
        MeasuredIn cfg dt s j u.scene := by
  have hadvance : u.scene.clock.now = (s.frames cfg dt n).scene.clock.now + dt :=
    congrArg Clock.now (passed_of_pass hpass).clock
  have hframe := frames_succ hpass
  have hshows := (h.accounts.congr (passed_of_pass hpass).job).shows_serve cfg
  rw [← hframe] at hshows
  obtain ⟨⟨hnow, houtlook⟩, -⟩ := hshows
  -- a look in this frame is a look from where the rover stands at its end
  have hnew : u.scene.station.gates.distance = some u.scene.clock.now →
      Sensors.Measured cfg.senses (s.frames cfg dt n).world u.scene.station.rover
        u.scene.station.rover.distance →
      ∃ j ≤ n + 1, u.scene.station.gates.distance = some (s.frames cfg dt j).scene.clock.now ∧
        MeasuredIn cfg dt s j u.scene := by
    intro hgate hlook
    rw [h.world] at hlook
    refine ⟨n + 1, le_rfl, by rw [hnow, hgate], by omega, hnow.le, ?_, ?_⟩
    · rw [hnow, sub_self]
      exact hinterval
    · exact hlook.congr (Prod.mk.inj houtlook).1
  rcases h.stored with ⟨first, hsettling⟩ | ⟨j, hj, hgate, hmeasured⟩
  · rcases hsettling.pass hlong h.active hpass with ⟨hsettling, hrest⟩ | ⟨hgate, hlook⟩
    · exact .inl ⟨⟨first, hsettling⟩, hrest⟩
    · exact .inr (hnew hgate hlook)
  · rcases outlook_of_pass hpass h.active with ⟨hfresh, hkept, hdistance⟩ | ⟨-, hgate, hlook⟩
    · obtain ⟨time, htime, hrecent⟩ := Sensors.exists_of_fresh hfresh
      rw [hgate] at htime
      cases htime
      refine .inr ⟨j, by omega, hkept.trans hgate, hmeasured.late, ?_, hrecent.le, ?_⟩
      · linarith [hmeasured.past]
      · rw [hdistance]
        exact hmeasured.measured
    · exact .inr (hnew hgate hlook)

theorem Watched.succ (h : Watched cfg dt s n) (hn : 1 ≤ n) (hdt : 0 < dt)
    (hinterval : 0 ≤ cfg.senses.interval)
    (hlong : cfg.senses.interval + Clock.slack ≤ cfg.pauses.reset.amount)
    (hpass : pass cfg dt (s.frames cfg dt n) = .ok () u) : Watched cfg dt s (n + 1) := by
  have hpassed := passed_of_pass hpass
  have haccounts : Accounts (s.begun cfg dt n) u := h.accounts.congr hpassed.job
  have hactive : u.scene.station.active = .rover := hpassed.station.active.trans h.active
  have hworld : u.world = s.world := hpassed.world.trans h.world
  have hbefore : ∀ entry ∈ s.begun cfg dt n, ∃ j ≤ n + 1, MeasuredIn cfg dt s j entry.2 := by
    intro entry hentry
    obtain ⟨j, hj, hmeasured⟩ := h.begun entry hentry
    exact ⟨j, by omega, hmeasured⟩
  rcases h.exists_measuredIn hn hdt hinterval hlong hpass with
    ⟨hsettling, hserve, hnone⟩ | ⟨j, hj, hgate, hmeasured⟩
  · have hframe : s.frames cfg dt (n + 1) = u := (frames_succ hpass).trans hserve
    have hbegun : s.begun cfg dt (n + 1) = s.begun cfg dt n := by
      rw [begun_succ hpass, hnone, List.append_nil]
    refine ⟨?_, ?_, ?_, ?_, ?_⟩
    · rw [hframe]
      exact hactive
    · rw [hframe]
      exact hworld
    · rw [hframe, hbegun]
      exact haccounts
    · rw [hbegun]
      exact hbefore
    · rw [hframe]
      exact .inl hsettling
  · -- every command of the frame finds what the sensor stored last
    obtain ⟨⟨hnow, houtlook⟩, hentries⟩ := haccounts.shows_serve cfg
    obtain ⟨hdistance, hgates⟩ := Prod.mk.inj (Prod.mk.inj houtlook).2
    refine ⟨?_, ?_, ?_, ?_, ?_⟩
    · rw [frames_succ hpass, active_serve]
      exact hactive
    · rw [frames_succ hpass, world_serve]
      exact hworld
    · rw [frames_succ hpass, begun_succ hpass]
      exact haccounts.serve hmeasured.measured.ne_null
    · rw [begun_succ hpass]
      refine List.forall_mem_append.mpr ⟨hbefore, fun entry hentry => ⟨j, hj, ?_⟩⟩
      obtain ⟨hentrynow, hentrylook⟩ := hentries entry hentry
      exact hmeasured.congr hentrynow (Prod.mk.inj (Prod.mk.inj hentrylook).2).1
    · refine .inr ⟨j, hj, ?_⟩
      rw [frames_succ hpass]
      exact ⟨hgates.trans hgate, hmeasured.congr hnow hdistance⟩

/-- A run of a program that has not run yet is watched from its first frame on. -/
theorem watched_of_passes {commands : List (Command ℝ)} (hjob : s.job = some (.fresh commands))
    (hwaits : s.scene.clock.waits = []) (hactive : s.scene.station.active = .rover)
    (hpast : s.scene.LooksBack) (hdt : 0 < dt) (hinterval : 0 < cfg.senses.interval)
    (hlong : cfg.senses.interval + Clock.slack ≤ cfg.pauses.reset.amount)
    (hpasses : ∀ j < n + 1, ∃ u, pass cfg dt (s.frames cfg dt j) = .ok () u) :
    Watched cfg dt s (n + 1) := by
  induction n with
  | zero =>
    obtain ⟨u, hpass⟩ := hpasses 0 Nat.zero_lt_one
    have hpassed := passed_of_pass hpass
    obtain ⟨hsettling, hnone, haccounts⟩ :=
      settling_of_fresh hjob hwaits hactive hpast hdt (by linarith) hpass
    have hframe : s.frames cfg dt (0 + 1) = u.serve cfg := frames_succ hpass
    have hbegun : s.begun cfg dt (0 + 1) = [] := by
      rw [begun_succ hpass, hnone]
      rfl
    refine ⟨?_, ?_, ?_, ?_, ?_⟩
    · rw [hframe, active_serve]
      exact hpassed.station.active.trans hactive
    · rw [hframe, world_serve]
      exact hpassed.world
    · rw [hframe, hbegun]
      exact haccounts
    · rw [hbegun]
      exact List.forall_mem_nil _
    · rw [hframe]
      exact .inl ⟨_, hsettling⟩
  | succ n ih =>
    obtain ⟨u, hpass⟩ := hpasses (n + 1) (Nat.lt_succ_self _)
    exact (ih fun j hj => hpasses j (Nat.lt_succ_of_lt hj)).succ (Nat.succ_pos n) hdt hinterval.le
      hlong hpass

/-! ### Two frames -/

/-- A program that reads the distance once, in frames as long as the pause at its start and without
a pause at its end, hands out what is stored in the second frame. -/
theorem runToEnd_of_two_passes {v : Simulation ℝ} (hjob : s.job = some (.fresh [.getDistance]))
    (hwaits : s.scene.clock.waits = []) (hactive : s.scene.station.active = .rover)
    (hreset : Clock.slack < cfg.pauses.reset.amount) (hdt : cfg.pauses.reset.amount ≤ dt)
    (hpause : cfg.pauses.distance.IsNumber) (hnone : cfg.pauses.distance.amount ≤ 0)
    (hpass : pass cfg dt s = .ok () u) (hagain : pass cfg dt (u.serve cfg) = .ok () v)
    (hstored : v.scene.station.rover.distance ≠ .null) :
    runToEnd cfg dt .null 2 s = .ok [v.scene.station.rover.distance] (v.serve cfg) ∧
      (v.serve cfg).scene.station = v.scene.station := by
  obtain ⟨w, hdue, hasleep, -, -⟩ := asleep_of_fresh hjob hwaits hreset hpass
  have hcommands : ([.getDistance] : List (Command ℝ)).filter
      (fun c => c.robot == s.scene.station.active) = [.getDistance] := by
    rw [hactive]
    rfl
  rw [hcommands] at hasleep
  have hv := hasleep.pass hagain
  have hmet : w.due.Met (u.scene.clock.now + (1 : Nat) * dt) 1 := by
    rw [hdue]
    show u.scene.clock.now + cfg.pauses.reset.amount - Clock.slack ≤ _
    rw [Nat.cast_one, one_mul]
    linarith [Clock.slack_nonneg]
  -- the command begins and ends in the second frame
  have hsteps : Command.getDistance.steps? cfg v.released.scene =
      .ok [.sleep cfg.pauses.distance.amount, .reading v.scene.station.rover.distance] := by
    unfold Command.steps?
    rw [Step.pausing_eq hpause]
    dsimp only
    split
    · next hnull => exact absurd hnull hstored
    · rfl
  have hresume : Execution.resume cfg ⟨[], [.getDistance], []⟩ v.released.scene =
      .ok (.done [v.scene.station.rover.distance]) v.released.scene := by
    unfold Execution.resume
    rw [Execution.run_command hsteps, Execution.run_done (Step.take_sleep_of_nonpos hnone),
      Execution.run_reading rfl, Execution.run_finished]
    rfl
  let finished : Simulation ℝ :=
    { v.released with job := some (.finished [v.scene.station.rover.distance]) }
  have hserve : v.serve cfg = finished := by
    rw [(hv.serve_eq cfg).1, (hv.settle_due cfg hmet _).1]
    unfold Stage.settled Stage.next advanceJob
    dsimp only
    rw [hresume]
    exact (settle_of_no_waits (s := finished) cfg nofun (hv.waits_released hmet) _).1
  refine ⟨?_, by rw [hserve]; rfl⟩
  have hfresh : s.running = true := by
    unfold running
    rw [hjob]
    rfl
  unfold runToEnd
  rw [run_get_bind, runFrames, run_get_bind, verdict?_of_running hfresh]
  show (frame cfg dt >>= fun _ => runFrames cfg dt .null _ 1) s = _
  rw [run_bind (frame_of_pass hpass), runFrames, run_get_bind, verdict?_of_running hasleep.running]
  show (frame cfg dt >>= fun _ => runFrames cfg dt .null _ 0) _ = _
  rw [run_bind (frame_of_pass hagain), runFrames, run_get_bind, hserve]
  rfl

/-! ### A box ahead -/

/-- Time can pass for a rover at rest if its sensors can look from where it stands, and it stays
there. -/
theorem exists_pass_of_resting (cfg : Settings ℝ)
    (hdriving : cfg.driving = Settings.standard.driving) (hresting : s.scene.station.Resting)
    (hrefresh : ∀ history, ∃ t, Sensors.refresh cfg.senses cfg.mapping s.world
      (s.scene.clock.now + dt)
      { s.scene.station with rover := { s.scene.station.rover with history } } = .ok () t) :
    ∃ u, pass cfg dt s = .ok () u ∧
      (u.scene.station.rover.ground, u.scene.station.rover.heading) =
        (s.scene.station.rover.ground, s.scene.station.rover.heading) := by
  let place : Station ℝ → Vantage ℝ × ℝ := fun st => (st.rover.ground, st.rover.heading)
  have hlook : Yields (fun st => ∃ history,
        st = { s.scene.station with rover := { s.scene.station.rover with history } })
      (Sensors.refresh cfg.senses cfg.mapping s.world (s.scene.clock.now + dt))
      fun _ st => place st = place s.scene.station := by
    rintro st ⟨history, rfl⟩
    obtain ⟨t, hrun⟩ := hrefresh history
    exact ⟨(), t, hrun, (Sensors.preserves_place_refresh (place s.scene.station)).of_ok hrun rfl⟩
  have hpass : Yields (· = s) (pass cfg dt)
      fun _ u => place u.scene.station = place s.scene.station := by
    refine yields_bind (Q := fun _ t =>
        t = { s with scene := { s.scene with clock := s.scene.clock.advance dt } })
      (yields_modify fun t ht => ht ▸ rfl) fun _ => ?_
    refine yields_get fun t ht => ?_
    subst ht
    refine yields_of (V := fun t => t.scene.station = s.scene.station) (fun t ht => ht ▸ rfl) ?_
    refine yields_bind
      (yields_onStation (Feedback.yields_advance_of_rover _ dt hresting.active)) fun _ => ?_
    rw [hdriving]
    exact yields_bind (yields_onStation (Drive.yields_advance_of_resting dt _ hresting))
      fun _ => yields_onStation hlook
  obtain ⟨_, u, hrun, hplace⟩ := hpass s rfl
  exact ⟨u, hrun, hplace⟩

/-- The built-in settings for the rover, but for a distance sensor with the given interval, a lidar
that looks every ten seconds, and no pause after a reading. -/
noncomputable def glancing (interval : ℝ) : Settings ℝ :=
  let cfg : Settings ℝ := .standard
  { cfg with
    robot := .rover
    senses := { cfg.senses with interval, scanInterval := .real (10 : ℕ) }
    pauses := { cfg.pauses with distance := .real 0 } }

/-- A box, two metres ahead of the rover at home. -/
noncomputable def boxAhead : World ℝ :=
  [⟨.box (.real (-1)) (.real 1) (.real (2 : ℕ)) (.real (3 : ℕ)), .text "obstacle"⟩]

theorem proper_boxAhead : boxAhead.Proper := by
  intro o ho _
  rcases List.mem_singleton.mp ho with rfl
  have hbounds : ∀ {a b : ℝ}, a ≤ b → Shape.Bounds (.real a) (.real b) :=
    fun hab => ⟨⟨_, rfl⟩, ⟨_, rfl⟩, hab⟩
  exact ⟨hbounds (by norm_num), hbounds (by norm_num)⟩

theorem sharp_glancing (interval : ℝ) :
    Sensors.Sharp (glancing interval).senses (glancing interval).mapping where
  range_isNumber := Sensors.sharp_standard.range_isNumber
  range_nonneg := Sensors.sharp_standard.range_nonneg
  hitRatio_isNumber := Sensors.sharp_standard.hitRatio_isNumber
  hitRatio_le := Sensors.sharp_standard.hitRatio_le
  rays_lt := Sensors.sharp_standard.rays_lt

section BoxAhead

variable (interval : ℝ)

theorem reset_glancing : (glancing interval).pauses.reset.amount = 1 / 2 := by
  show @OfScientific.ofScientific ℝ Scalar.instOfScientific 5 true 1 = 1 / 2
  rw [Scalar.ofScientific_real]
  norm_num

theorem range_glancing : (glancing interval).senses.range.amount = 5 := by
  show @OfScientific.ofScientific ℝ Scalar.instOfScientific 50 true 1 = 5
  rw [Scalar.ofScientific_real]
  norm_num

theorem slack_le : (Clock.slack : ℝ) ≤ 1 / 10 := by
  show ((1 : Nat) : ℝ) / 10 ^ 9 ≤ 1 / 10
  norm_num

theorem slack_lt_reset : Clock.slack < (glancing interval).pauses.reset.amount := by
  rw [reset_glancing]
  linarith [slack_le]

/-- The rover of the built-in settings at home. -/
noncomputable def atHome : Rover ℝ := .home Settings.standard.driving Settings.standard.senses

theorem heading_atHome : atHome.heading = 0 := Scalar.zero_real

theorem regular_atHome : (Ray.along atHome.ground (heading atHome.heading)).Regular := by
  have hangle : atHome.heading = World.rayAngle 1 0 := by
    rw [World.rayAngle_real, Nat.cast_zero, zero_mul, heading_atHome]
  rw [hangle]
  exact World.regular_rayAngle (by decide) one_pos (by norm_num) 0

/-- From home the rover sees the box. -/
theorem ahead?_boxAhead {rover : Rover ℝ}
    (hplace : (rover.ground, rover.heading) = (atHome.ground, atHome.heading)) :
    ∃ v, Sensors.ahead? (glancing interval).senses boxAhead rover = .ok v ∧
      v.numeric? = .ok 2 := by
  obtain ⟨hground, hheading⟩ := Prod.mk.inj hplace
  obtain ⟨s, hcast, hs⟩ := World.exists_cast? regular_atHome proper_boxAhead
    (sharp_glancing interval).range_isNumber (sharp_glancing interval).range_nonneg
  have hblocked : ∀ t, (Ray.along atHome.ground (heading atHome.heading)).Blocked boxAhead t ↔
      2 ≤ t ∧ t ≤ 3 := by
    intro t
    show boxAhead.SolidAt (@OfNat.ofNat ℝ 0 (Scalar.instOfNat 0) + Real.sin atHome.heading * t)
      (@OfNat.ofNat ℝ 0 (Scalar.instOfNat 0) + Real.cos atHome.heading * t) ↔ _
    rw [heading_atHome, Real.sin_zero, Real.cos_zero, Scalar.zero_real, zero_mul, one_mul, zero_add,
      zero_add]
    constructor
    · rintro ⟨o, ho, -, hin⟩
      rcases List.mem_singleton.mp ho with rfl
      exact hin.2
    · intro ht
      have hside : (-1 : ℝ) ≤ 0 ∧ (0 : ℝ) ≤ 1 := by norm_num
      exact ⟨_, List.mem_cons_self, rfl, hside, ht⟩
  have hdistance : s.value.amount = 2 := by
    apply le_antisymm
    · by_contra hfar
      exact hs.clear 2 zero_le_two (not_le.mp hfar) ((hblocked 2).mpr ⟨le_rfl, by norm_num⟩)
    · by_contra hclose
      have hlt : s.value.amount < 2 := not_le.mp hclose
      exact hclose ((hblocked _).mp (hs.blocked (hlt.trans (by rw [range_glancing]; norm_num)))).1
  refine ⟨s.value, ?_, ?_⟩
  · unfold Sensors.ahead?
    rw [hground, hheading]
    show (World.cast? _ (Ray.along atHome.ground (heading atHome.heading)) _ >>= _) = _
    rw [hcast]
    rfl
  · rw [Value.numeric?_of_isNumber hs.isNumber, hdistance]

/-- A measurement from home is the distance of the box. -/
theorem eq_of_measured_boxAhead {rover : Rover ℝ} {distance : Value ℝ}
    (h : Sensors.Measured (glancing interval).senses boxAhead rover distance)
    (hplace : (rover.ground, rover.heading) = (atHome.ground, atHome.heading)) :
    distance = .real 2 := by
  obtain ⟨v, d, hahead, hd, rfl⟩ := h
  obtain ⟨v', hahead', hd'⟩ := ahead?_boxAhead interval hplace
  cases hahead.symm.trans hahead'
  cases hd.symm.trans hd'
  rfl

/-- Half a second after the start the rover is at home in front of the box, and both sensors have
just looked. -/
structure Poised (s : Simulation ℝ) : Prop where
  active : s.scene.station.active = .rover
  rover : s.scene.station.rover = atHome
  gates : s.scene.station.gates = ⟨some (1 / 2), some (1 / 2)⟩
  now : s.scene.clock.now = 1 / 2
  world : s.world = boxAhead

theorem exists_first_pass_boxAhead :
    let cfg := glancing interval
    ∃ u, pass cfg (1 / 2) ((new cfg boxAhead).ask cfg (.start [.getDistance])).2 = .ok () u ∧
      (u.serve cfg).Poised := by
  intro cfg
  let started := ((new cfg boxAhead).ask cfg (.start [.getDistance])).2
  obtain ⟨g, hg⟩ := Settings.new?_standard
  have hrefresh : ∀ history, ∃ t, Sensors.refresh cfg.senses cfg.mapping boxAhead
      (started.scene.clock.now + 1 / 2) { started.scene.station with
        rover := { started.scene.station.rover with history } } = .ok () t := by
    intro history
    have hfresh : Sensors.Fresh { started.scene.station with
        rover := { started.scene.station.rover with history } } :=
      ⟨rfl, rfl, rfl, nofun, regular_atHome⟩
    obtain ⟨_, -, hyields⟩ := Sensors.yields_refresh_of_fresh (sharp_glancing interval)
      proper_boxAhead (rfl : cfg.senses.rays = .whole 36) (by decide) hg hfresh
      (started.scene.clock.now + 1 / 2)
    obtain ⟨_, t, hrun, -⟩ := hyields _ rfl
    exact ⟨t, hrun⟩
  obtain ⟨u, hpass, -⟩ := exists_pass_of_resting (s := started) cfg rfl
    ⟨rfl, rfl, rfl, rfl, ⟨_, rfl⟩⟩ hrefresh
  have hpassed := passed_of_pass hpass
  have hactive : u.scene.station.active = .rover := hpassed.station.active
  have hnow : u.scene.clock.now = 1 / 2 := by
    rw [hpassed.clock]
    show @OfNat.ofNat ℝ 0 (Scalar.instOfNat 0) + 1 / 2 = 1 / 2
    rw [Scalar.zero_real, zero_add]
  -- the program brings the rover home, which opens no gate
  obtain ⟨-, -, -, hstation, -⟩ := asleep_of_fresh rfl rfl (slack_lt_reset interval) hpass
  have hhome : (u.serve cfg).scene.station =
      { u.scene.station with rover := atHome, map := none } := by
    rw [hstation]
    unfold Station.home
    rw [hactive]
    rfl
  refine ⟨u, hpass, ?_, ?_, ?_, (now_serve cfg u).trans hnow,
    (world_serve cfg u).trans hpassed.world⟩
  · rw [hhome]
    exact hactive
  · rw [hhome]
  · rw [hhome, ← hnow, hpassed.clock]
    exact (Except.ok.inj (gates?_of_pass hpass)).symm

/-- After another half second the sensor measures the distance of the box if it is due again by
then, and otherwise leaves what the rover stored when it went home. -/
theorem Poised.exists_pass (h : s.Poised) :
    ∃ v, pass (glancing interval) (1 / 2) s = .ok () v ∧
      (v.scene.station.rover.ground, v.scene.station.rover.heading) =
        (atHome.ground, atHome.heading) ∧
      v.scene.station.rover.distance =
        if 1 / 2 < interval then (glancing interval).senses.range else .real 2 := by
  have hlater : s.scene.clock.now + 1 / 2 = 1 := by
    rw [h.now]
    norm_num
  have habove : ∀ x : ℝ, Sensors.fresh? (some (1 / 2)) 1 (.real x) = .ok (decide (1 / 2 < x)) := by
    intro x
    have hhalf : (1 : ℝ) - 1 / 2 = 1 / 2 := by norm_num
    show Except.ok ((Number.real x).above ((1 : ℝ) - 1 / 2)) = _
    rw [Number.above_real, hhalf]
    rfl
  have hrefresh : ∀ history, ∃ t, Sensors.refresh (glancing interval).senses
      (glancing interval).mapping s.world (s.scene.clock.now + 1 / 2)
      { s.scene.station with rover := { s.scene.station.rover with history } } = .ok () t := by
    intro history
    rw [h.rover, h.world, hlater]
    refine Sensors.exists_refresh_of_scanned (sharp_glancing interval) proper_boxAhead 1 h.active
      regular_atHome ?_
    show Sensors.fresh? s.scene.station.gates.scan 1 (.real 10) = _
    rw [h.gates, habove]
    exact congrArg Except.ok (decide_eq_true (by norm_num))
  have hresting : s.scene.station.Resting := by
    refine ⟨h.active, ?_, ?_, ?_, ?_⟩
    all_goals rw [h.rover]
    · rfl
    · rfl
    · rfl
    · exact ⟨_, rfl⟩
  obtain ⟨v, hpass, hplace⟩ := exists_pass_of_resting (glancing interval) rfl hresting hrefresh
  rw [h.rover] at hplace
  refine ⟨v, hpass, hplace, ?_⟩
  have hnow : v.scene.clock.now = 1 := by
    rw [(passed_of_pass hpass).clock]
    exact hlater
  have hdue : Sensors.fresh? s.scene.station.gates.distance v.scene.clock.now
      (.real interval) = .ok (decide (1 / 2 < interval)) := by
    rw [h.gates, hnow]
    exact habove interval
  rcases outlook_of_pass hpass h.active with ⟨hfresh, -, hkept⟩ | ⟨hstale, -, hlook⟩
  · rw [if_pos (of_decide_eq_true (Except.ok.inj (hdue.symm.trans hfresh))), hkept, h.rover]
    rfl
  · rw [if_neg (of_decide_eq_false (Except.ok.inj (hdue.symm.trans hstale)))]
    rw [h.world] at hlook
    exact eq_of_measured_boxAhead interval hlook hplace

/-- In two frames a program reads the distance of the box if the sensor is due again in the second
one, and otherwise the distance that nobody has measured. The rover never leaves its home. -/
theorem runToEnd_boxAhead :
    let cfg := glancing interval
    let started := ((new cfg boxAhead).ask cfg (.start [.getDistance])).2
    (∃ t, runToEnd cfg (1 / 2) .null 2 started =
        .ok [if 1 / 2 < interval then cfg.senses.range else .real 2] t) ∧
      ∀ n ≤ 2, ((started.frames cfg (1 / 2) n).scene.station.rover.ground,
        (started.frames cfg (1 / 2) n).scene.station.rover.heading) =
          (atHome.ground, atHome.heading) := by
  intro cfg started
  obtain ⟨u, hpass, hpoised⟩ := exists_first_pass_boxAhead interval
  obtain ⟨v, hagain, hplace, hread⟩ := hpoised.exists_pass interval
  have hstored : v.scene.station.rover.distance ≠ .null := by
    rw [hread]
    split <;> exact nofun
  obtain ⟨hrun, hend⟩ := runToEnd_of_two_passes rfl rfl rfl (slack_lt_reset interval)
    (reset_glancing interval).le ⟨_, rfl⟩ le_rfl hpass hagain hstored
  rw [hread] at hrun
  refine ⟨⟨_, hrun⟩, fun n hn => ?_⟩
  have hcount : n = 0 ∨ n = 1 ∨ n = 2 := by omega
  rcases hcount with rfl | rfl | rfl
  · rfl
  · rw [frames_succ_of_pass hpass, frames, hpoised.rover]
  · rw [frames_succ_of_pass hpass, frames_succ_of_pass hagain, frames, hend, hplace]

end BoxAhead

/-! ### All readings -/

/-- A program for the rover is started where none runs, after any requests whose frames do not go
back in time. If the pause after the rover went home is at least as long as the interval of the
sensor, up to the slack of the clock, then every run that hands out readings hands out, for each
command that reads the distance, what the sensor measured in a frame of the run: after the one in
which the program brought the rover home, and at most one interval before the command began. -/
theorem readings_measured {world : World ℝ} {s : Simulation ℝ}
    (hreachable : s.ForwardReachable cfg world) (hidle : s.running = false)
    (hactive : s.scene.station.active = .rover) (hdt : 0 < dt)
    (hinterval : 0 < cfg.senses.interval)
    (hlong : cfg.senses.interval + Clock.slack ≤ cfg.pauses.reset.amount)
    (commands : List (Command ℝ)) (limit : Value ℝ) (frames : Nat) :
    let started := (s.ask cfg (.start commands)).2
    ∀ readings t, runToEnd cfg dt limit frames started = .ok readings t →
      ∃ n, t = started.frames cfg dt n ∧
        readings = Command.readings (started.begun cfg dt n) ∧
        ∀ entry ∈ started.begun cfg dt n, ∃ j ≤ n, MeasuredIn cfg dt started j entry.2 := by
  intro started readings t hrun
  have hstart := ask_start cfg hidle commands
  have hjob : started.job = some (.fresh commands) := by
    show (s.ask cfg (.start commands)).2.job = _
    rw [hstart]
  have hscene : started.scene = s.scene := by
    show (s.ask cfg (.start commands)).2.scene = _
    rw [hstart]
  have hwaits : started.scene.clock.waits = [] := by
    rw [hscene]
    exact hreachable.reachable.orderly.of_not_waiting (not_waiting_of_not_running hidle)
  obtain ⟨n, rfl, hpasses, hverdict⟩ := exists_frames_of_run hrun
  have hend := job_of_verdict? hverdict
  cases n with
  | zero =>
    -- a program that has not run has no readings yet
    have hfresh : (started.frames cfg dt 0).job = some (.fresh commands) := hjob
    rw [hfresh] at hend
    simp at hend
  | succ n =>
    have hwatched := watched_of_passes hjob hwaits (hscene ▸ hactive)
      (hscene ▸ hreachable.looksBack) hdt hinterval hlong hpasses
    have haccounts := hwatched.accounts
    refine ⟨n + 1, rfl, ?_, hwatched.begun⟩
    unfold Accounts at haccounts
    rcases hend with hjob | hjob | hjob
    · rw [hjob] at haccounts
      exact haccounts
    · rw [hjob] at haccounts
      exact haccounts.elim
    · rw [hjob] at haccounts
      exact haccounts.elim

/-- The built-in interval is short enough. The program begins its only command in the second frame,
and reads that the box is two metres ahead. -/
theorem readings_measured_box_ahead :
    let cfg := glancing (1 / 10)
    let s := new cfg boxAhead
    let started := (s.ask cfg (.start [.getDistance])).2
    s.ForwardReachable cfg boxAhead ∧ s.running = false ∧ s.scene.station.active = .rover ∧
      (0 : ℝ) < 1 / 2 ∧ 0 < cfg.senses.interval ∧
      cfg.senses.interval + Clock.slack ≤ cfg.pauses.reset.amount ∧
      ∃ t, runToEnd cfg (1 / 2) .null 2 started = .ok [.real 2] t ∧
        ∃ n, t = started.frames cfg (1 / 2) n ∧
          [.real 2] = Command.readings (started.begun cfg (1 / 2) n) ∧
          ∀ entry ∈ started.begun cfg (1 / 2) n,
            ∃ j ≤ n, MeasuredIn cfg (1 / 2) started j entry.2 := by
  intro cfg s started
  have hreachable : s.ForwardReachable cfg boxAhead := ⟨[], List.forall_mem_nil _, rfl⟩
  have hdt : (0 : ℝ) < 1 / 2 := by norm_num
  have hinterval : 0 < cfg.senses.interval := by
    show (0 : ℝ) < 1 / 10
    norm_num
  have hlong : cfg.senses.interval + Clock.slack ≤ cfg.pauses.reset.amount := by
    rw [reset_glancing]
    show 1 / 10 + Clock.slack ≤ (1 / 2 : ℝ)
    linarith [slack_le]
  obtain ⟨⟨t, hrun⟩, -⟩ := runToEnd_boxAhead (1 / 10)
  rw [if_neg (by norm_num)] at hrun
  exact ⟨hreachable, rfl, rfl, hdt, hinterval, hlong, t, hrun,
    readings_measured hreachable rfl rfl hdt hinterval hlong _ _ _ _ _ hrun⟩

/-- An interval of one second is longer than the pause of half a second. The program reads the range
of the sensor, which the rover stored when it went home, while the box is two metres ahead of it in
every frame. -/
theorem placeholder_read_before_look :
    let cfg := glancing 1
    let started := ((new cfg boxAhead).ask cfg (.start [.getDistance])).2
    (∃ t, runToEnd cfg (1 / 2) .null 2 started = .ok [cfg.senses.range] t) ∧
      ∀ n ≤ 2, ¬ Sensors.Measured cfg.senses boxAhead
        (started.frames cfg (1 / 2) n).scene.station.rover cfg.senses.range := by
  intro cfg started
  obtain ⟨⟨t, hrun⟩, hplace⟩ := runToEnd_boxAhead 1
  rw [if_pos (by norm_num)] at hrun
  refine ⟨⟨t, hrun⟩, fun n hn hmeasured => ?_⟩
  have hrange := range_glancing 1
  rw [eq_of_measured_boxAhead 1 hmeasured (hplace n hn)] at hrange
  exact absurd hrange (by show ¬ (2 : ℝ) = 5; norm_num)

end Simulation

end ArmRover
