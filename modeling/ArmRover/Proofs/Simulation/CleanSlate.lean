import ArmRover.Proofs.Simulation.Bystander

/-!
# Clean slates

What a program does and reads does not depend on what the robot was doing before. In its first frame
the robots still move and the sensors still look from wherever they are, and then the active robot
is brought home; nothing that the station remembers gets past that.

* `Simulation.Idle` — simulations without a program, `Simulation.Reachable.idle` — no wait is left
  open in one.
* `Simulation.Abreast` — simulations that may differ in what the robots were doing.
* `Simulation.Agrees` — simulations that show the same of the active robot.
* `Simulation.Abreast.echoes_serve` — the first frame of a program.
* `Simulation.program_starts_clean` — what comes after it.
-/

namespace ArmRover.Simulation

variable {α : Type} [Scalar α]

/-- No program runs, and no wait is open. -/
structure Idle (s : Simulation α) : Prop where
  running : s.running = false
  pending : s.scene.clock.pending = 0

omit [Scalar α] in
theorem Idle.waits {s : Simulation α} (h : s.Idle) : s.scene.clock.waits = [] :=
  List.length_eq_zero_iff.mp h.pending

/-- A simulation whose program has come to its end is idle. -/
theorem Reachable.idle {cfg : Settings α} {world : World α} {s : Simulation α}
    (h : s.Reachable cfg world) (hrunning : s.running = false) : s.Idle := by
  have hwaits := h.orderly.of_not_waiting (not_waiting_of_not_running hrunning)
  exact ⟨hrunning, congrArg List.length hwaits⟩

/-- Simulations at the same moment, in the same world, with the same robot active and with sensors
that were refreshed at the same times. The robots may be in any states, and so may the map while it
is the active robot's. -/
structure Abreast (s t : Simulation α) : Prop where
  now : s.scene.clock.now = t.scene.clock.now
  frame : s.scene.clock.frame = t.scene.clock.frame
  world : s.world = t.world
  active : s.scene.station.active = t.scene.station.active
  gates : s.scene.station.gates = t.scene.station.gates
  map : t.scene.station.active = .arm → s.scene.station.map = t.scene.station.map

/-- The simulations show the same: the time, the open waits, the active robot, the map, whether a
program runs, and how a run ends. -/
structure Agrees (s t : Simulation α) : Prop where
  now : s.scene.clock.now = t.scene.clock.now
  frame : s.scene.clock.frame = t.scene.clock.frame
  pending : s.scene.clock.pending = t.scene.clock.pending
  active : s.scene.station.active = t.scene.station.active
  arm : t.scene.station.active = .arm →
    s.scene.station.arm = t.scene.station.arm ∧ s.scene.station.gripper = t.scene.station.gripper
  rover : t.scene.station.active = .rover → s.scene.station.rover = t.scene.station.rover
  map : s.scene.station.map = t.scene.station.map
  running : s.running = t.running
  verdict (limit : Value α) (since : α) : s.verdict? limit since = t.verdict? limit since

omit [Scalar α] in
theorem Abreast.symm {s t : Simulation α} (h : s.Abreast t) : t.Abreast s where
  now := h.now.symm
  frame := h.frame.symm
  world := h.world.symm
  active := h.active.symm
  gates := h.gates.symm
  map ha := (h.map (h.active ▸ ha)).symm

omit [Scalar α] in
theorem Abreast.withJob {s t : Simulation α} (h : s.Abreast t) (job : Option (Job α)) :
    Abreast { s with job } { t with job } :=
  ⟨h.now, h.frame, h.world, h.active, h.gates, h.map⟩

theorem Agrees.symm {s t : Simulation α} (h : s.Agrees t) : t.Agrees s where
  now := h.now.symm
  frame := h.frame.symm
  pending := h.pending.symm
  active := h.active.symm
  arm ha := (h.arm (h.active ▸ ha)).imp Eq.symm Eq.symm
  rover hr := (h.rover (h.active ▸ hr)).symm
  map := h.map.symm
  running := h.running.symm
  verdict limit since := (h.verdict limit since).symm

/-- Echoes at the same time agree, if the arm has kept the same map. -/
theorem Echoes.agrees {tickets : Nat} {active : Robot} {kept : Station α × Station α}
    {s t : Simulation α} (h : Simulation.Echoes (.ofTickets tickets) active kept s t)
    (hmap : active = .arm → kept.1.map = kept.2.map) : s.Agrees t where
  now := by
    rw [h.scene.clock]
    rfl
  frame := by
    rw [h.scene.clock]
    rfl
  pending := by rw [h.scene.clock, Clock.pending_shift]
  active := h.scene.station.active_left.trans h.scene.station.active_right.symm
  arm ha := h.scene.station.arm (h.scene.station.active_right ▸ ha)
  rover hr :=
    (h.scene.station.rover (h.scene.station.active_right ▸ hr)).1.trans (Rover.shift_ofTickets _ _)
  map := by
    have hstation := h.scene.station
    cases active with
    | arm =>
      exact hstation.untouched_left.2.trans ((hmap rfl).trans hstation.untouched_right.2.symm)
    | rover => exact (hstation.rover rfl).2
  running := h.running
  verdict limit since := h.verdict? limit since

namespace Abreast

variable {cfg : Settings α} {dt : α} {s t s' t' : Simulation α}

/-- The clocks of simulations without open waits only differ in the tickets to come. -/
theorem clock_eq_shift (h : s.Abreast t) (hs : s.scene.clock.waits = [])
    (ht : t.scene.clock.waits = []) (hissued : t.scene.clock.issued ≤ s.scene.clock.issued) :
    s.scene.clock =
      t.scene.clock.shift (.ofTickets (s.scene.clock.issued - t.scene.clock.issued)) := by
  rw [Clock.shift_ofTickets_of_no_waits _ ht, Nat.add_sub_cancel' hissued, ← h.now, ← h.frame, ht,
    ← hs]

/-- After a first half without faults the sensors have been refreshed at the same times. -/
theorem gates_eq_of_pass (h : s.Abreast t) (hs : pass cfg dt s = .ok () s')
    (ht : pass cfg dt t = .ok () t') : s'.scene.station.gates = t'.scene.station.gates := by
  have hsgates := gates?_of_pass hs
  have htgates := gates?_of_pass ht
  rw [Clock.advance, h.now, h.active, h.gates] at hsgates
  exact Except.ok.inj (hsgates.symm.trans htgates)

/-- While the arm is active the first half leaves the maps as they are. -/
theorem map_eq_of_pass (h : s.Abreast t) (hsfor : s.Dedicated) (htfor : t.Dedicated)
    (ha : t.scene.station.active = .arm) (hs : pass cfg dt s = .ok () s')
    (ht : pass cfg dt t = .ok () t') : s'.scene.station.map = t'.scene.station.map := by
  have hskept := hsfor.untouched_of_pass hs
  have htkept := htfor.untouched_of_pass ht
  rw [h.active, ha] at hskept
  rw [ha] at htkept
  exact hskept.2.trans ((h.map ha).trans htkept.2.symm)

/-- In the first frame of a program time passes for the robots, each from where it was, and then the
active one comes home. -/
theorem echoes_serve (h : s.Abreast t) {commands : List (Command α)}
    (hsjob : s.job = some (.fresh commands)) (htjob : t.job = some (.fresh commands))
    {tickets : Nat} (hclock : s.scene.clock = t.scene.clock.shift (.ofTickets tickets))
    (hs : pass cfg dt s = .ok () s') (ht : pass cfg dt t = .ok () t') :
    Simulation.Echoes (.ofTickets tickets) t.scene.station.active
      (s'.scene.station, t'.scene.station) (s'.serve cfg) (t'.serve cfg) := by
  have hspassed := passed_of_pass hs
  have htpassed := passed_of_pass ht
  have hsactive : s'.scene.station.active = t.scene.station.active :=
    hspassed.station.active.trans h.active
  have htactive : t'.scene.station.active = t.scene.station.active := htpassed.station.active
  have hgates : s'.scene.station.gates = t'.scene.station.gates.shift (.ofTickets tickets) := by
    rw [Gates.shift_ofTickets]
    exact h.gates_eq_of_pass hs ht
  have hclock' : s'.scene.clock = t'.scene.clock.shift (.ofTickets tickets) := by
    rw [hspassed.clock, htpassed.clock, hclock, Clock.advance_shift]
  have hhome : Scene.Echoes (.ofTickets tickets) t.scene.station.active
      (s'.scene.station, t'.scene.station) (s'.scene.onStation (·.home cfg.toRig))
      (t'.scene.onStation (·.home cfg.toRig)) :=
    ⟨.of_home cfg.toRig hsactive htactive hgates, hclock'⟩
  refine Echoes.serve_of_runReady cfg ?_
  unfold runReady
  rw [hspassed.job, hsjob, htpassed.job, htjob]
  exact Echoes.of_alike (hspassed.world.trans (h.world.trans htpassed.world.symm))
    (Execution.echo_begin_of_home cfg rfl hsactive htactive hhome)

/-- The simulation that has given out more tickets echoes the other one. -/
theorem trace_agrees (h : s.Abreast t) {commands : List (Command α)}
    (hsjob : s.job = some (.fresh commands)) (htjob : t.job = some (.fresh commands))
    {tickets : Nat} (hclock : s.scene.clock = t.scene.clock.shift (.ofTickets tickets))
    (hs : pass cfg dt s = .ok () s') (ht : pass cfg dt t = .ok () t')
    {requests : List (Request α)} (hrequests : ∀ r ∈ requests, r.switches = false) :
    List.Forall₂ (fun x y => x.1 = y.1 ∧ x.2.Agrees y.2)
      (s.trace cfg (.frame dt :: requests)) (t.trace cfg (.frame dt :: requests)) := by
  have hecho := h.echoes_serve hsjob htjob hclock hs ht
  have hmap := fun ha =>
    h.map_eq_of_pass (dedicated_of_fresh hsjob) (dedicated_of_fresh htjob) ha hs ht
  unfold trace
  rw [ask_frame hs, ask_frame ht]
  refine .cons ⟨rfl, hecho.agrees hmap⟩ ?_
  exact (hecho.trace cfg hrequests).imp fun _ _ hxy => ⟨hxy.1, hxy.2.agrees hmap⟩

end Abreast

/-- Idle simulations that are abreast show the same from the first frame of a program on, and give
the same answers, whatever the active robot was doing before, as long as time can pass for it once
more from there. -/
theorem program_starts_clean (cfg : Settings α) {s t : Simulation α} (hs : s.Idle) (ht : t.Idle)
    (h : s.Abreast t) (commands : List (Command α)) (dt : α)
    (hsframe : ((s.ask cfg (.start commands)).2.ask cfg (.frame dt)).1 = .ok .done)
    (htframe : ((t.ask cfg (.start commands)).2.ask cfg (.frame dt)).1 = .ok .done)
    {requests : List (Request α)} (hrequests : ∀ r ∈ requests, r.switches = false) :
    List.Forall₂ (fun x y => x.1 = y.1 ∧ x.2.Agrees y.2)
      ((s.ask cfg (.start commands)).2.trace cfg (.frame dt :: requests))
      ((t.ask cfg (.start commands)).2.trace cfg (.frame dt :: requests)) := by
  rw [ask_start cfg hs.running] at hsframe ⊢
  rw [ask_start cfg ht.running] at htframe ⊢
  obtain ⟨s', hspass⟩ := exists_pass_of_ask_frame hsframe
  obtain ⟨t', htpass⟩ := exists_pass_of_ask_frame htframe
  have hfresh := h.withJob (some (.fresh commands))
  rcases Nat.le_total t.scene.clock.issued s.scene.clock.issued with hissued | hissued
  · have hclock := hfresh.clock_eq_shift hs.waits ht.waits hissued
    exact hfresh.trace_agrees rfl rfl hclock hspass htpass hrequests
  · have hclock := hfresh.symm.clock_eq_shift ht.waits hs.waits hissued
    have hflipped := hfresh.symm.trace_agrees rfl rfl hclock htpass hspass hrequests
    exact hflipped.flip.imp fun _ _ hxy => ⟨hxy.1.symm, hxy.2.symm⟩

/-- A rover that stands at the origin, and one that stands elsewhere and is lit. -/
theorem program_starts_clean_elsewhere :
    let frame : Request ℝ := .frame Settings.standard.run.frameTime
    let commands : List (Command ℝ) := [.move 1 0, .getDistance]
    let requests : List (Request ℝ) := [frame, .runToEnd Settings.standard.run.frameTime .null 100]
    let s : Simulation ℝ := ((new .standard []).ask .standard (.switchTo "rover")).2
    let elsewhere := { s.scene.station.rover with x := 3, heading := 1, light := .text "red" }
    let t : Simulation ℝ :=
      { s with scene := { s.scene with station := { s.scene.station with rover := elsewhere } } }
    (s.Idle ∧ t.Idle ∧ s.Abreast t) ∧
      ((s.ask .standard (.start commands)).2.ask .standard frame).1 = .ok .done ∧
      ((t.ask .standard (.start commands)).2.ask .standard frame).1 = .ok .done ∧
      (∀ r ∈ requests, r.switches = false) ∧
      List.Forall₂ (fun x y => x.1 = y.1 ∧ x.2.Agrees y.2)
        ((s.ask .standard (.start commands)).2.trace .standard (frame :: requests))
        ((t.ask .standard (.start commands)).2.trace .standard (frame :: requests)) := by
  intro frame commands requests s elsewhere t
  have hs : s.Idle := ⟨rfl, rfl⟩
  have ht : t.Idle := ⟨rfl, rfl⟩
  have h : s.Abreast t := ⟨rfl, rfl, rfl, rfl, rfl, fun _ => rfl⟩
  have hresting : ∀ u : Simulation ℝ, u.scene.station.Scanned none ∧ u.world = [] →
      (u.ask .standard frame).1 = .ok .done := by
    intro u hu
    obtain ⟨_, u', hpass, -⟩ := yields_pass_resting Settings.standard.run.frameTime none u hu
    rw [ask_frame hpass]
  have hsframe := hresting (s.ask .standard (.start commands)).2
    ⟨⟨⟨rfl, rfl, rfl, rfl, ⟨_, rfl⟩⟩, rfl⟩, rfl⟩
  have htframe := hresting (t.ask .standard (.start commands)).2
    ⟨⟨⟨rfl, rfl, rfl, rfl, ⟨_, rfl⟩⟩, rfl⟩, rfl⟩
  have hrequests : ∀ r ∈ requests, r.switches = false := by
    simp [requests, frame, Request.switches]
  exact ⟨⟨hs, ht, h⟩, hsframe, htframe, hrequests,
    program_starts_clean .standard hs ht h commands _ hsframe htframe hrequests⟩

end ArmRover.Simulation
