import ArmRover.Proofs.Settings.Standard
import ArmRover.Proofs.Simulation.Echo

/-!
# Resets

A simulation that was reset goes on like one that is built anew, whatever happened to it before.
All that is left of its past is the time, and while the arm is active the map, which is the rover's.

* `Lag` — how much later a run is than another one, `Rover.later` — what is remembered in a later
  run.
* `Simulation.newFor` — a new simulation with a given robot.
* `Simulation.Resembles` — what simulations at different times have in common.
* `Simulation.follows_reset` — a reset simulation echoes a new one.
* `Simulation.reset_resembles_new` — a reset simulation resembles a new one, from then on.
* `Simulation.map_survives_reset` — a map that outlives a reset.
-/

namespace ArmRover

/-- How much later a run is than another one. -/
structure Lag where
  time : ℝ
  frames : Nat
  tickets : Nat

/-- A lag as an offset, in exact time. -/
noncomputable def Lag.offset (l : Lag) : Offset ℝ where
  time x := x + l.time
  frames := l.frames
  tickets := l.tickets
  time_add x y := add_right_comm x l.time y
  time_sub x y := (sub_add_eq_add_sub x y l.time).symm
  time_sub_time x y := add_sub_add_right_eq_sub x y l.time
  time_lt_time _ _ := add_lt_add_iff_right l.time
  time_le_time _ _ := add_le_add_iff_right l.time

/-- The same sample in a later run. -/
def Sample.later (l : Lag) (x : Sample ℝ) : Sample ℝ := { x with time := x.time + l.time }

/-- The same rover in a later run. -/
def Rover.later (l : Lag) (r : Rover ℝ) : Rover ℝ :=
  { r with
    lastCommand := r.lastCommand.map (· + l.time)
    history := r.history.map (Sample.later l) }

theorem Rover.shift_offset (l : Lag) (r : Rover ℝ) : r.shift l.offset = r.later l := rfl

namespace Simulation

/-- A simulation that is built anew, with its robot chosen. -/
def newFor {α : Type} [Scalar α] (cfg : Settings α) (world : World α) (robot : Robot) :
    Simulation α :=
  ((new cfg world).ask cfg (.switchTo robot.name)).2

/-- The simulations show the same at different times: whether a program runs, how many waits are
open, and the robot that is active. The map counts while it is the rover. -/
structure Resembles (l : Lag) (s t : Simulation ℝ) : Prop where
  now : s.scene.clock.now = t.scene.clock.now + l.time
  pending : s.scene.clock.pending = t.scene.clock.pending
  running : s.running = t.running
  active : s.scene.station.active = t.scene.station.active
  arm : t.scene.station.active = .arm →
    s.scene.station.arm = t.scene.station.arm ∧ s.scene.station.gripper = t.scene.station.gripper
  rover : t.scene.station.active = .rover →
    s.scene.station.rover = t.scene.station.rover.later l ∧
      s.scene.station.map = t.scene.station.map

variable {l : Lag} {active : Robot} {kept : Station ℝ × Station ℝ}

/-! ### Going on -/

namespace Echoes

variable {s t : Simulation ℝ}

theorem resembles (h : Simulation.Echoes l.offset active kept s t) : s.Resembles l t where
  now := by
    rw [h.scene.clock, Clock.now_shift]
    rfl
  pending := by rw [h.scene.clock, Clock.pending_shift]
  running := h.running
  active := h.scene.station.active_left.trans h.scene.station.active_right.symm
  arm := by
    intro ha
    rw [h.scene.station.active_right] at ha
    exact h.scene.station.arm ha
  rover := by
    intro hr
    rw [h.scene.station.active_right] at hr
    rw [← Rover.shift_offset]
    exact h.scene.station.rover hr

theorem map_eq_kept (h : Simulation.Echoes l.offset active kept s t)
    (ha : s.scene.station.active = .arm) : s.scene.station.map = kept.1.map := by
  rw [h.scene.station.active_left] at ha
  subst ha
  exact h.scene.station.untouched_left.2

end Echoes

/-! ### After a reset -/

/-- How much later a simulation is than a new one. -/
def age (s : Simulation ℝ) : Lag := ⟨s.scene.clock.now, s.scene.clock.frame, s.scene.clock.issued⟩

theorem newFor_eq (cfg : Settings ℝ) (world : World ℝ) (robot : Robot) :
    newFor cfg world robot =
      { new cfg world with
        scene :=
          ⟨{ Station.new cfg.toRig with active := robot }, Clock.start (Scalar.ofInt 0)⟩ } := by
  cases robot <;> rfl

/-- A reset leaves nothing behind but the age, and what belongs to the other robot. -/
theorem follows_reset (cfg : Settings ℝ) (s : Simulation ℝ) :
    let new := newFor cfg s.world s.scene.station.active
    Simulation.Echoes s.age.offset s.scene.station.active (s.scene.station, new.scene.station)
      (s.ask cfg .reset).2 new := by
  have hclock : s.scene.clock.dropAll = (Clock.start (Scalar.ofInt 0)).shift s.age.offset := by
    simp [Clock.dropAll, Clock.start, Clock.shift, Lag.offset, age]
  have hstation : Station.Echoes s.age.offset s.scene.station.active
      (s.scene.station, { Station.new cfg.toRig with active := s.scene.station.active })
      (Sensors.reset (s.scene.station.home cfg.toRig))
      { Station.new cfg.toRig with active := s.scene.station.active } := by
    unfold Station.home
    cases ha : s.scene.station.active with
    | arm =>
      refine ⟨ha, rfl, rfl, fun _ => ⟨rfl, rfl⟩, ?_, ⟨rfl, rfl⟩, .refl _ _⟩
      intro h
      cases h
    | rover =>
      refine ⟨ha, rfl, rfl, ?_, fun _ => ⟨rfl, rfl⟩, ⟨rfl, rfl⟩, .refl _ _⟩
      intro h
      cases h
  intro new
  have hnew : new = _ := newFor_eq cfg s.world s.scene.station.active
  rw [hnew]
  exact ⟨⟨hstation, hclock⟩, rfl, .none⟩

/-- Whatever state a simulation is in, after a reset no program runs and no wait is open, and the
simulation resembles one that is built anew, at once and after each request that is made of both as
long as none is for another robot; and the answers are the same. The simulation stays ahead by the
time of the reset. While the arm is active, the map is that of before the reset. -/
theorem reset_resembles_new (cfg : Settings ℝ) (s : Simulation ℝ) :
    let reset := (s.ask cfg .reset).2
    let new := newFor cfg s.world s.scene.station.active
    (s.ask cfg .reset).1 = .ok .done ∧ reset.running = false ∧ reset.scene.clock.pending = 0 ∧
    ∃ l : Lag, l.time = s.scene.clock.now ∧
      reset.Resembles l new ∧
      (reset.scene.station.active = .arm → reset.scene.station.map = s.scene.station.map) ∧
      ∀ requests : List (Request ℝ), (∀ r ∈ requests, r.switches = false) →
        List.Forall₂
          (fun x y => x.1 = y.1 ∧ x.2.Resembles l y.2 ∧
            (x.2.scene.station.active = .arm → x.2.scene.station.map = s.scene.station.map))
          (reset.trace cfg requests) (new.trace cfg requests) := by
  have hfollows := follows_reset cfg s
  refine ⟨rfl, rfl, rfl, s.age, rfl, hfollows.resembles, hfollows.map_eq_kept, ?_⟩
  intro requests hrequests
  refine (hfollows.trace cfg hrequests).imp fun x y hxy => ?_
  exact ⟨hxy.1, hxy.2.resembles, hxy.2.map_eq_kept⟩

/-- In the middle of a program, before it is asked for another one. -/
theorem reset_resembles_new_midway :
    let s := (new (.standard : Settings ℝ) []).after .standard
      [.start [.openGripper], .frame Settings.standard.run.frameTime]
    let later : List (Request ℝ) := [.start [.openGripper], .frame Settings.standard.run.frameTime]
    (∀ r ∈ later, r.switches = false) ∧
    ∃ l : Lag, List.Forall₂
      (fun x y => x.1 = y.1 ∧ x.2.Resembles l y.2 ∧
        (x.2.scene.station.active = .arm → x.2.scene.station.map = s.scene.station.map))
      ((s.ask .standard .reset).2.trace .standard later)
      ((newFor .standard s.world s.scene.station.active).trace .standard later) := by
  intro s later
  have hlater : ∀ r ∈ later, r.switches = false := by
    intro r hr
    rcases List.mem_cons.mp hr with rfl | hr
    · rfl
    · rcases List.mem_singleton.mp hr with rfl
      rfl
  obtain ⟨-, -, -, l, -, -, -, htrace⟩ := reset_resembles_new .standard s
  exact ⟨hlater, l, htrace later hlater⟩

/-- The map that the rover has drawn is there after a reset of the arm, and not in a new
simulation. -/
theorem map_survives_reset :
    let s := (new (.standard : Settings ℝ) []).after .standard
      [.switchTo "rover", .frame Settings.standard.run.frameTime, .switchTo "arm"]
    s.scene.station.active = .arm ∧
      (s.ask .standard .reset).2.scene.station.map.isSome = true ∧
      (newFor .standard s.world s.scene.station.active).scene.station.map = none := by
  intro s
  let built : Simulation ℝ := newFor .standard [] .rover
  obtain ⟨_, t, hpass, -, hmap⟩ := yields_pass_resting Settings.standard.run.frameTime none
    built ⟨⟨⟨rfl, rfl, rfl, rfl, ⟨_, rfl⟩⟩, rfl⟩, rfl⟩
  have hjob : t.job = none := by
    have h := (passed Settings.standard Settings.standard.run.frameTime built).job
    rw [hpass] at h
    exact h
  obtain ⟨hstation, -, hnone⟩ := serve_of_none (Settings.standard : Settings ℝ) hjob
  have hframe : built.ask .standard (.frame Settings.standard.run.frameTime) =
      (.ok .done, t.serve .standard) := ask_frame hpass
  have hs : s = ((t.serve .standard).ask .standard (.switchTo Robot.arm.name)).2 := by
    show ((built.ask .standard (.frame Settings.standard.run.frameTime)).2.ask .standard
      (.switchTo "arm")).2 = _
    rw [hframe]
    rfl
  have hidle : (t.serve .standard).running = false := by
    unfold running
    rw [hnone]
    rfl
  rw [ask_switchTo .standard hidle] at hs
  rw [hs]
  refine ⟨rfl, ?_, rfl⟩
  show (t.serve .standard).scene.station.map.isSome = true
  rw [hstation]
  exact hmap rfl

end Simulation

end ArmRover
