import ArmRover.Proofs.Simulation.Orderly
import ArmRover.Proofs.Simulation.Punctual
import ArmRover.Proofs.Simulation.Steady
import ArmRover.Proofs.Simulation.Until
import ArmRover.Proofs.Settings.Standard

/-!
# Programs come to their end

A program that is started where none runs comes to its end, as long as time can pass and its
settings are of use to it. It takes the time of its waits, and it hands out its readings in order.

* `Simulation.runFrames_of_verdict` — a run stops when the program is at its end.
* `Simulation.asleep_of_fresh`, `Simulation.exists_stage_after_reset`,
  `Simulation.exists_end_of_fresh` — from the start to the first pause, to the first command, and to
  the end.
* `Simulation.program_finishes` — every program comes to its end, on time, with its readings.
-/

namespace ArmRover.Simulation

open ArmRover.Action

variable {cfg : Settings ℝ} {dt : ℝ}

/-- The second half of a frame takes no time. -/
theorem now_serve (cfg : Settings ℝ) (s : Simulation ℝ) :
    (s.serve cfg).scene.clock.now = s.scene.clock.now :=
  serve_preserves cfg (P := fun t => t.clock.now = s.scene.clock.now) (fun _ h => h)
    (fun commands => preserves_now (Execution.opening_begin cfg commands) _)
    (fun _ => preserves_now (Execution.opening_run cfg _ _ _) _) rfl

/-! ### Running until the end -/

/-- A run stops in the first frame in which there is a verdict on the program. -/
theorem runFrames_of_verdict {s : Simulation ℝ} (hsmooth : s.Smooth cfg dt) {since : ℝ} {n : Nat}
    (hrunning : ∀ j < n, (s.frames cfg dt j).running = true)
    {verdict : Except (Fault ℝ) (List (Value ℝ))}
    (hverdict : (s.frames cfg dt n).verdict? .null since = some verdict) (m : Nat) :
    runFrames cfg dt .null since m s =
      if n ≤ m then tell verdict (s.frames cfg dt n)
      else .error .outOfFrames (s.frames cfg dt m) := by
  have hgone : ∀ k ≤ n, Unstopped cfg dt (judged? .null since) k s := by
    intro k hk j hj
    have hnow := hrunning j (hj.trans_le hk)
    exact ⟨judged?_of_running hnow since, hsmooth j hnow⟩
  rw [runFrames_eq]
  split
  · next hle =>
    obtain ⟨i, rfl⟩ := Nat.exists_eq_add_of_le hle
    have hstop : judged? .null since (s.frames cfg dt n) = some (tell verdict) := by
      unfold judged?
      rw [hverdict]
      rfl
    rw [framesUntil_add (hgone n (Nat.le_refl n)), framesUntil_of_stop hstop]
  · next hlt =>
    have hlt : m < n := Nat.lt_of_not_le hlt
    rw [← Nat.add_zero m, framesUntil_add (hgone m (Nat.le_of_lt hlt)),
      framesUntil_zero (judged?_of_running (hrunning m hlt) since), Nat.add_zero]

theorem tell_of_finished {s : Simulation ℝ} {readings : List (Value ℝ)}
    (h : s.job = some (.finished readings)) : tell (.ok readings) s = .ok readings s := by
  obtain ⟨t, htell, hsame⟩ := tell_eq (.ok readings : Except (Fault ℝ) _) s
  rw [htell, hsame (by rw [h]; exact nofun)]
  rfl

theorem tell_error (fault : Fault ℝ) (s : Simulation ℝ) :
    ∃ t, (tell (.error fault) : Action ℝ (Simulation ℝ) (List (Value ℝ))) s = .error fault t := by
  obtain ⟨t, htell, -⟩ := tell_eq (.error fault : Except (Fault ℝ) (List (Value ℝ))) s
  exact ⟨t, htell⟩

/-! ### From the start to the end -/

/-- In its first frame a program brings the robot home, and what is left of it then are the pause
after that and the commands for the robot. -/
theorem exists_stage_of_fresh {s t : Simulation ℝ} {commands : List (Command ℝ)}
    (hjob : s.job = some (.fresh commands)) (hwaits : s.scene.clock.waits = [])
    (hpass : pass cfg dt s = .ok () t) :
    ∃ p : Stage ℝ, p.left = ⟨[Step.pausing cfg.pauses.reset],
        commands.filter fun c => c.robot == s.scene.station.active, []⟩ ∧
      p.Fits cfg (t.scene.station.home cfg.toRig) ∧ t.serve cfg = p.settled cfg ∧
      t.begunServing cfg = p.log cfg ∧ t.scene.station.active = s.scene.station.active ∧
      p.sim.scene.clock.now = t.scene.clock.now ∧
      p.sim.scene.station = t.scene.station.home cfg.toRig := by
  have hpassed := passed_of_pass hpass
  have hactive : t.scene.station.active = s.scene.station.active := hpassed.station.active
  have hfresh : t.job = some (.fresh commands) := hpassed.job.trans hjob
  rw [← hactive]
  let p : Stage ℝ := ⟨{ t with scene := t.scene.onStation (·.home cfg.toRig) },
    ⟨[Step.pausing cfg.pauses.reset],
      commands.filter fun c => c.robot == t.scene.station.active, []⟩,
    (t.runReady cfg).sleepsLeft cfg + 2⟩
  have hbegin : Execution.begin cfg commands t.scene =
      Execution.resume cfg p.left p.sim.scene := rfl
  have hnext : t.runReady cfg = p.next cfg := by
    unfold runReady
    rw [hfresh]
    unfold Stage.next advanceJob
    rw [← hbegin]
  have hready : t.begunReady cfg =
      Execution.begun cfg p.left.commands p.left.steps p.left.readings p.sim.scene := by
    unfold begunReady
    rw [hfresh]
  refine ⟨p, rfl, ⟨?_, .refl _, .inr ?_⟩, ?_, ?_, rfl, rfl, rfl⟩
  · show t.scene.clock.waits = []
    rw [show t.scene.clock = s.scene.clock.advance dt from hpassed.clock]
    exact hwaits
  · rw [← hnext]
  · unfold serve Stage.settled
    rw [hnext, ← hnext]
  · unfold begunServing Stage.log
    rw [hready, hnext, ← hnext]

/-- In its first frame a program brings the robot home, and then it sleeps. -/
theorem asleep_of_fresh {s u : Simulation ℝ} {commands : List (Command ℝ)}
    (hjob : s.job = some (.fresh commands)) (hwaits : s.scene.clock.waits = [])
    (hreset : Clock.slack < cfg.pauses.reset.amount) (hpass : pass cfg dt s = .ok () u) :
    ∃ w : Wait ℝ, w.due = .time (u.scene.clock.now + cfg.pauses.reset.amount) ∧
      Asleep (u.scene.station.home cfg.toRig) dt u.scene.clock.now
        ⟨[], commands.filter fun c => c.robot == s.scene.station.active, []⟩ w 0 (u.serve cfg) ∧
      (u.serve cfg).scene.station = u.scene.station.home cfg.toRig ∧
      u.begunServing cfg = [] := by
  have hpos : 0 < cfg.pauses.reset.amount := Clock.slack_nonneg.trans_lt hreset
  have hnumber : cfg.pauses.reset.IsNumber := by
    by_contra hnot
    unfold Value.amount at hpos
    cases hn : cfg.pauses.reset.number? with
    | ok n => exact hnot ⟨n, hn⟩
    | error fault =>
      rw [hn] at hpos
      exact absurd hpos (lt_irrefl 0)
  obtain ⟨p, hleft, hp, hserve, hbegun, -, hnow, hstation⟩ :=
    exists_stage_of_fresh hjob hwaits hpass
  rw [Step.pausing_eq hnumber] at hleft
  obtain ⟨scene, hclock, hkept, hsleep⟩ : ∃ scene : Scene ℝ,
      scene.clock = p.sim.scene.clock.register
        (.time (p.sim.scene.clock.now + cfg.pauses.reset.amount)) ∧
      scene.station = p.sim.scene.station ∧
      (Step.sleep cfg.pauses.reset.amount).take cfg p.sim.scene =
        .ok (.waits p.sim.scene.clock.issued []) scene :=
    ⟨⟨p.sim.scene.station, p.sim.scene.clock.register _⟩, rfl, rfl, Step.take_sleep_of_pos hpos⟩
  have hrun : Execution.resume cfg p.left p.sim.scene = .ok (.waiting p.sim.scene.clock.issued
      ⟨[], commands.filter fun c => c.robot == s.scene.station.active, []⟩) scene := by
    rw [hleft]
    exact Execution.run_waits hsleep
  have hasleep : Asleep _ dt p.sim.scene.clock.now _ _ 0 (p.next cfg) :=
    Stage.asleep_of_waits hp hrun rfl hclock (hkept ▸ hp.station)
  -- the sleep is longer than the slack, so that it does not end in the same frame
  have hnot : ¬ (Due.time (p.sim.scene.clock.now + cfg.pauses.reset.amount)).Met
      (p.sim.scene.clock.now + (0 : Nat) * dt) 0 := by
    show ¬ p.sim.scene.clock.now + cfg.pauses.reset.amount - Clock.slack ≤ _
    rw [Nat.cast_zero, zero_mul]
    linarith
  obtain ⟨hsettle, hlog⟩ := hasleep.settle_early cfg hnot p.fuel
  have hnext : u.serve cfg = p.next cfg := hserve.trans hsettle
  rw [← hnow, hnext]
  refine ⟨_, rfl, hasleep, ?_, ?_⟩
  · unfold Stage.next advanceJob
    rw [hrun]
    exact hkept.trans hstation
  · rw [hbegun]
    unfold Stage.log
    rw [hlog, hleft, Execution.begun_waits hsleep]
    rfl

/-- After the first pause only the commands for the active robot are left. -/
theorem exists_stage_after_reset {s : Simulation ℝ} {commands : List (Command ℝ)} (hdt : 0 < dt)
    (hreset : cfg.pauses.reset.IsNumber) (hjob : s.job = some (.fresh commands))
    (hwaits : s.scene.clock.waits = []) (hsmooth : s.Smooth cfg dt) :
    ∃ (k : Nat) (q : Stage ℝ) (home : Station ℝ),
      q.left = ⟨[], commands.filter fun c => c.robot == s.scene.station.active, []⟩ ∧
      home.active = s.scene.station.active ∧ q.Fits cfg (home.home cfg.toRig) ∧
      s.frames cfg dt (k + 1) = q.settled cfg ∧ s.begun cfg dt (k + 1) = q.log cfg ∧
      (∀ i < k + 1, (s.frames cfg dt i).running = true) ∧
      q.sim.scene.clock.now = (s.frames cfg dt 1).scene.clock.now + k * dt ∧
      OnTime dt [cfg.pauses.reset.amount] (k * dt) := by
  have hnow : s.running = true := by
    unfold running
    rw [hjob]
    rfl
  obtain ⟨t, hpass⟩ := hsmooth 0 hnow
  have hpass : pass cfg dt s = .ok () t := hpass
  -- in the first frame the robot goes home, and then the program sleeps
  obtain ⟨p, hpleft, hp, hserve, hbegun, hactive, hpnow, -⟩ :=
    exists_stage_of_fresh hjob hwaits hpass
  have hpsmooth : (p.settled cfg).Smooth cfg dt := hserve ▸ hsmooth.serve hpass
  rw [Step.pausing_eq hreset] at hpleft
  obtain ⟨k, q, hqleft, hq, hpq, htime⟩ := Stage.leads_over_sleep hdt hp hpsmooth
    (show p.left.steps = .sleep cfg.pauses.reset.amount :: [] by rw [hpleft])
  rw [hpleft] at hqleft
  have hfirst : (s.frames cfg dt 1).scene.clock.now = p.sim.scene.clock.now := by
    rw [frames_succ_of_pass hpass, frames, now_serve, hpnow]
  refine ⟨k, q, t.scene.station, hqleft, hactive, hq, ?_, ?_, ?_, ?_, htime⟩
  · rw [frames_succ_of_pass hpass, hserve, hpq.settled]
  · rw [begun_succ_of_pass hpass, hserve, hbegun, hpq.begun, List.nil_append]
  · intro i hi
    cases i with
    | zero => exact hnow
    | succ i =>
      rw [frames_succ_of_pass hpass, hserve]
      exact hpq.running i (Nat.lt_of_succ_lt_succ hi)
  · rw [hfirst, hpq.now]

/-- A program that has not run yet comes to its end, on time. -/
theorem exists_end_of_fresh {s : Simulation ℝ} {commands : List (Command ℝ)} (hdt : 0 < dt)
    (htimed : cfg.Timed) (hjob : s.job = some (.fresh commands))
    (hwaits : s.scene.clock.waits = []) (hsmooth : s.Smooth cfg dt)
    (hproper : ∀ c ∈ commands, c.robot = s.scene.station.active → c.Proper ∧ cfg.Serves c) :
    let own := commands.filter fun c => c.robot == s.scene.station.active
    ∃ n, 1 ≤ n ∧
      (s.frames cfg dt n).job = some (.finished (Command.readings (s.begun cfg dt n))) ∧
      (s.begun cfg dt n).map Prod.fst = own ∧
      (∀ m < n, (s.frames cfg dt m).running = true) ∧
      OnTime dt (cfg.waits own) ((s.frames cfg dt n).scene.clock.now -
        (s.frames cfg dt 1).scene.clock.now) := by
  intro own
  obtain ⟨k, q, home, hqleft, hactive, hq, hframes, hbegun, hrunning, hqnow, htime⟩ :=
    exists_stage_after_reset hdt htimed.reset.1 hjob hwaits hsmooth
  have hown : ∀ c ∈ own, c.Proper ∧ cfg.Serves c := by
    intro c hc
    obtain ⟨hmem, hrobot⟩ := List.mem_filter.mp hc
    exact hproper c hmem (eq_of_beq hrobot)
  -- a distance is read only from a rover, which is at home, with the range as its distance
  have hread : .getDistance ∈ own → (home.home cfg.toRig).rover.distance ≠ .null := by
    intro hmem
    have hrover : home.active = .rover := by
      rw [hactive]
      exact (eq_of_beq (List.mem_filter.mp hmem).2).symm
    unfold Station.home
    rw [hrover]
    exact (hown _ hmem).2
  have hqsmooth : (q.settled cfg).Smooth cfg dt := hframes ▸ hsmooth.frames (k + 1)
  obtain ⟨m, r, log, hrleft, hr, hqr, hlog, htimes⟩ := Stage.leads_over_commands hdt htimed hq
    hqsmooth hqleft (fun c hc => (hown c hc).1) (fun c hc => (hown c hc).2) hread
  obtain ⟨hfinished, hrlog⟩ := Stage.settled_of_finished hr hrleft
  rw [List.nil_append] at hfinished
  have hend : s.frames cfg dt (k + 1 + m) =
      { r.sim with job := some (.finished (Command.readings log)) } := by
    rw [frames_add, hframes, hqr.settled, hfinished]
  have hbegan : s.begun cfg dt (k + 1 + m) = log := by
    rw [begun_add, hframes, hbegun, hqr.begun, hrlog, List.append_nil]
  refine ⟨k + 1 + m, by omega, ?_, ?_, ?_, ?_⟩
  · rw [hend, hbegan]
  · rw [hbegan]
    exact hlog
  · intro i hi
    rcases Nat.lt_or_ge i (k + 1) with hlt | hge
    · exact hrunning i hlt
    · obtain ⟨i, rfl⟩ := Nat.exists_eq_add_of_le hge
      rw [frames_add, hframes]
      exact hqr.running i (by omega)
  · have helapsed : (s.frames cfg dt (k + 1 + m)).scene.clock.now -
        (s.frames cfg dt 1).scene.clock.now = (k + m : Nat) * dt := by
      rw [hend, hqr.now, hqnow, Nat.cast_add]
      ring
    rw [helapsed]
    exact htime.append htimes

end ArmRover.Simulation
