import ArmRover.Proofs.Execution.Timing
import ArmRover.Proofs.Simulation.Asleep

/-!
# Programs keep their time

Each step of a program takes its nominal time up to the slack and at most one frame more. This
adds up along the steps of a command and along the commands of a program.

* `Stage.leads_over_sleep`, `Stage.leads_over_turn`, `Stage.leads_over_step` — one step.
* `Stage.leads_over_steps`, `Stage.leads_over_command`, `Stage.leads_over_commands` — many.
* `Stage.settled_of_finished`, `Stage.settled_of_no_steps` — the end.
-/

namespace ArmRover

open ArmRover.Action

namespace Stage

variable {cfg : Settings ℝ} {s₀ : Station ℝ} {dt : ℝ} {p : Stage ℝ} {step : Step ℝ}
  {rest : List (Step ℝ)}

theorem sleepsLeft_cons (cfg : Settings ℝ) (hsteps : p.left.steps = step :: rest)
    (readings : List (Value ℝ)) :
    p.left.sleepsLeft cfg = Execution.stepSleeps step +
      (Execution.mk rest p.left.commands readings).sleepsLeft cfg := by
  unfold Execution.sleepsLeft
  rw [hsteps, List.map_cons, List.sum_cons, Nat.add_assoc]

/-- Over a step that does not wait. -/
theorem leads_of_take (dt : ℝ) (hfits : p.Fits cfg s₀) (hsteps : p.left.steps = step :: rest)
    {outcome : Step.Outcome ℝ} {t : Scene ℝ} {readings : List (Value ℝ)}
    (htake : step.take cfg p.sim.scene = .ok outcome t)
    (houtcome : outcome = .done ∧ readings = p.left.readings ∨
      ∃ d, outcome = .reading d ∧ readings = p.left.readings ++ [d]) :
    ∃ q, q.left = ⟨rest, p.left.commands, readings⟩ ∧ q.Fits cfg s₀ ∧ Leads cfg dt p 0 [] q := by
  have hopened := Step.opening_take cfg step p.sim.scene
  have hstation : s₀.Aged (final (step.take cfg p.sim.scene)).station :=
    Step.preserves_take cfg step p.sim.scene hfits.station
  rw [htake] at hopened hstation
  have hsleeps := sleepsLeft_cons cfg hsteps readings
  refine leads_of_resume dt hfits ?_ ?_ ?_ hstation (by omega)
  · unfold Execution.resume
    rw [hsteps]
    rcases houtcome with ⟨rfl, rfl⟩ | ⟨d, rfl, rfl⟩
    · exact Execution.run_done htake
    · exact Execution.run_reading htake
  · rw [hsteps]
    rcases houtcome with ⟨rfl, rfl⟩ | ⟨d, rfl, rfl⟩
    · exact Execution.begun_done htake
    · exact Execution.begun_reading htake
  · rcases houtcome with ⟨rfl, -⟩ | ⟨d, rfl, -⟩
    · exact hopened
    · exact hopened

/-- Over a step that waits, up to the first frame in which what it waits for has come. -/
theorem leads_of_take_waits (hfits : p.Fits cfg s₀) (hsmooth : (p.settled cfg).Smooth cfg dt)
    (hsteps : p.left.steps = step :: rest) {again : List (Step ℝ)} {due : Due ℝ}
    {station : Station ℝ}
    (htake : step.take cfg p.sim.scene = .ok (.waits p.sim.scene.clock.issued again)
      ⟨station, p.sim.scene.clock.register due⟩) (k : Nat)
    (hsleeps : k = 0 → Execution.stepSleeps step = 1 ∧ again = [])
    (hearly : ∀ i < k, ¬ due.Met (p.sim.scene.clock.now + i * dt) i)
    (hmet : due.Met (p.sim.scene.clock.now + k * dt) k) :
    ∃ q, q.left = ⟨again ++ rest, p.left.commands, p.left.readings⟩ ∧ q.Fits cfg s₀ ∧
      Leads cfg dt p k [] q := by
  have hrun : Execution.resume cfg p.left p.sim.scene = .ok (.waiting p.sim.scene.clock.issued
      ⟨again ++ rest, p.left.commands, p.left.readings⟩)
      ⟨station, p.sim.scene.clock.register due⟩ := by
    unfold Execution.resume
    rw [hsteps]
    exact Execution.run_waits htake
  have hbegun :
      Execution.begun cfg p.left.commands p.left.steps p.left.readings p.sim.scene = [] := by
    rw [hsteps]
    exact Execution.begun_waits htake
  have hstation : s₀.Aged (final (step.take cfg p.sim.scene)).station :=
    Step.preserves_take cfg step p.sim.scene hfits.station
  rw [htake] at hstation
  refine leads_of_waits hfits hsmooth hrun hbegun rfl rfl hstation k (fun hk => ?_) hearly hmet
  obtain ⟨hone, rfl⟩ := hsleeps hk
  rw [sleepsLeft_cons cfg hsteps p.left.readings, hone]
  exact Nat.lt_add_of_pos_left Nat.one_pos

/-- Over a sleep. -/
theorem leads_over_sleep (hdt : 0 < dt) (hfits : p.Fits cfg s₀)
    (hsmooth : (p.settled cfg).Smooth cfg dt) {s : ℝ} (hsteps : p.left.steps = .sleep s :: rest) :
    ∃ k q, q.left = ⟨rest, p.left.commands, p.left.readings⟩ ∧ q.Fits cfg s₀ ∧
      Leads cfg dt p k [] q ∧ OnTime dt [s] (k * dt) := by
  rcases le_or_gt s 0 with hs | hs
  · obtain ⟨q, hleft, hq, hleads⟩ :=
      leads_of_take dt hfits hsteps (Step.take_sleep_of_nonpos hs) (.inl ⟨rfl, rfl⟩)
    exact ⟨0, q, hleft, hq, hleads, onTime_of_nonpos hs⟩
  · -- the wait is released as soon as less than the slack is left of it
    obtain ⟨k, hreached, hearly, hlate⟩ := exists_first_frame hdt (s - Clock.slack)
    obtain ⟨q, hleft, hq, hleads⟩ := leads_of_take_waits hfits hsmooth hsteps
      (Step.take_sleep_of_pos hs) k (fun _ => ⟨rfl, rfl⟩)
      (by
        intro i hi hmet
        have hbefore := hearly i hi
        simp only [Due.Met] at hmet
        linarith)
      (by
        simp only [Due.Met]
        linarith)
    refine ⟨k, q, hleft, hq, hleads, onTime_of_pos hs hreached ?_⟩
    rcases Nat.eq_zero_or_pos k with rfl | hk
    · rw [Nat.cast_zero, zero_mul]
      linarith
    · have hafter := hlate hk
      have hslack := Clock.slack_nonneg
      linarith

/-- Over the rest of a turn that has gone on since some time, in the frames that its time needs. -/
theorem leads_over_rest_of_turn (hdt : 0 ≤ dt) (htime : cfg.motion.jointTime.IsNumber)
    (hfits : p.Fits cfg s₀) (hsmooth : (p.settled cfg).Smooth cfg dt) {j : Joint}
    {start target since : ℝ} (hsteps : p.left.steps = .turn j start target since :: rest)
    (hsince : since ≤ p.sim.scene.clock.now) (k : Nat)
    (hearly : ∀ i < k, p.sim.scene.clock.now - since + i * dt < cfg.motion.jointTime.amount)
    (hmet : cfg.motion.jointTime.amount ≤ p.sim.scene.clock.now - since + k * dt) :
    ∃ q, q.left = ⟨rest, p.left.commands, p.left.readings⟩ ∧ q.Fits cfg s₀ ∧
      Leads cfg dt p k [] q := by
  induction k generalizing p with
  | zero =>
    rw [Nat.cast_zero, zero_mul, add_zero] at hmet
    obtain ⟨t, htake⟩ := Step.take_turn_of_le htime hsince hmet
    exact leads_of_take dt hfits hsteps htake (.inl ⟨rfl, rfl⟩)
  | succ k ih =>
    have hnow := hearly 0 (Nat.succ_pos k)
    rw [Nat.cast_zero, zero_mul, add_zero] at hnow
    obtain ⟨station, htake⟩ := Step.take_turn_of_lt htime hsince hnow
    -- the turn is taken again in the next frame
    obtain ⟨q, hleft, hq, hpq⟩ := leads_of_take_waits hfits hsmooth hsteps htake 1
      (fun h => absurd h Nat.one_ne_zero)
      (by
        intro i hi hmet
        have hpos : 0 < i := hmet
        omega)
      Nat.one_pos
    have hqnow := hpq.now
    rw [Nat.cast_one, one_mul] at hqnow
    obtain ⟨r, hrleft, hr, hqr⟩ := ih hq (hpq.smooth hsmooth) (by rw [hleft]; rfl)
      (by rw [hqnow]; linarith)
      (by
        intro i hi
        have hbefore := hearly (i + 1) (Nat.succ_lt_succ hi)
        rw [Nat.cast_succ, add_one_mul] at hbefore
        rw [hqnow]
        linarith)
      (by
        rw [Nat.cast_succ, add_one_mul] at hmet
        rw [hqnow]
        linarith)
    rw [hleft] at hrleft
    exact ⟨r, hrleft, hr, Nat.add_comm 1 k ▸ hpq.trans hqr⟩

/-- Over a turn. -/
theorem leads_over_turn (hdt : 0 < dt) (htime : cfg.motion.jointTime.IsDuration)
    (hfits : p.Fits cfg s₀) (hsmooth : (p.settled cfg).Smooth cfg dt) {j : Joint}
    {start target : ℝ}
    (hsteps : p.left.steps = .turn j start target p.sim.scene.clock.now :: rest) :
    ∃ k q, q.left = ⟨rest, p.left.commands, p.left.readings⟩ ∧ q.Fits cfg s₀ ∧
      Leads cfg dt p k [] q ∧ OnTime dt [cfg.motion.jointTime.amount] (k * dt) := by
  obtain ⟨k, hreached, hearly, hlate⟩ := exists_first_frame hdt cfg.motion.jointTime.amount
  obtain ⟨q, hleft, hq, hleads⟩ := leads_over_rest_of_turn hdt.le htime.1 hfits hsmooth hsteps
    le_rfl k (by simpa using hearly) (by simpa using hreached)
  refine ⟨k, q, hleft, hq, hleads, ?_⟩
  rcases Nat.eq_zero_or_pos k with rfl | hk
  · rw [Nat.cast_zero, zero_mul] at hreached
    exact onTime_of_nonpos hreached
  · have hbefore := hearly 0 hk
    rw [Nat.cast_zero, zero_mul] at hbefore
    have hslack := Clock.slack_nonneg
    exact onTime_of_pos hbefore (by linarith) (hlate hk).le

/-! ### Steps in a row -/

/-- Over a step that is not a turn. -/
theorem leads_over_step (hdt : 0 < dt) (hfits : p.Fits cfg s₀)
    (hsmooth : (p.settled cfg).Smooth cfg dt) (hsteps : p.left.steps = step :: rest)
    (hplain : step.Plain cfg) :
    ∃ k q, q.left = ⟨rest, p.left.commands, p.left.readings ++ step.reading?.toList⟩ ∧
      q.Fits cfg s₀ ∧ Leads cfg dt p k [] q ∧ OnTime dt (step.waits cfg) (k * dt) := by
  -- what does not wait takes no frame
  have hdone : ∀ t, step.take cfg p.sim.scene = .ok .done t → step.reading? = none →
      step.waits cfg = [] → ∃ k q, q.left = ⟨rest, p.left.commands,
        p.left.readings ++ step.reading?.toList⟩ ∧ q.Fits cfg s₀ ∧ Leads cfg dt p k [] q ∧
        OnTime dt (step.waits cfg) (k * dt) := by
    intro t htake hreading hwaits
    obtain ⟨q, hleft, hq, hleads⟩ := leads_of_take dt hfits hsteps htake (.inl ⟨rfl, rfl⟩)
    refine ⟨0, q, ?_, hq, hleads, ?_⟩
    · rw [hleft, hreading, Option.toList_none, List.append_nil]
    · rw [hwaits]
      exact onTime_nil
  cases step with
  | turn j start target since => exact absurd hplain id
  | fail fault => exact absurd hplain id
  | pose q => exact hdone _ rfl rfl rfl
  | preview path => exact hdone _ rfl rfl rfl
  | grip mode effort => exact hdone _ rfl rfl rfl
  | light color => exact hdone _ rfl rfl rfl
  | drive vx wz =>
    obtain ⟨t, htake⟩ := Step.take_drive hplain.1 hplain.2 vx wz p.sim.scene
    exact hdone t htake rfl rfl
  | sleep s =>
    obtain ⟨k, q, hleft, hq, hleads, htime⟩ := leads_over_sleep hdt hfits hsmooth hsteps
    refine ⟨k, q, ?_, hq, hleads, htime⟩
    rw [hleft]
    exact congrArg _ (List.append_nil _).symm
  | reading d =>
    obtain ⟨q, hleft, hq, hleads⟩ := leads_of_take dt hfits hsteps rfl (.inr ⟨d, rfl, rfl⟩)
    exact ⟨0, q, hleft, hq, hleads, onTime_nil⟩

theorem leads_over_steps (hdt : 0 < dt) {steps : List (Step ℝ)} (hfits : p.Fits cfg s₀)
    (hsmooth : (p.settled cfg).Smooth cfg dt) (hsteps : p.left.steps = steps)
    (hplain : ∀ step ∈ steps, step.Plain cfg) :
    ∃ k q, q.left = ⟨[], p.left.commands, p.left.readings ++ steps.filterMap Step.reading?⟩ ∧
      q.Fits cfg s₀ ∧ Leads cfg dt p k [] q ∧
      OnTime dt (steps.flatMap (Step.waits cfg)) (k * dt) := by
  induction steps generalizing p with
  | nil =>
    refine ⟨0, p, ?_, hfits, .refl p, onTime_nil⟩
    rw [List.filterMap_nil, List.append_nil, ← hsteps]
  | cons step steps ih =>
    obtain ⟨k, q, hleft, hq, hpq, htime⟩ :=
      leads_over_step hdt hfits hsmooth hsteps (hplain step List.mem_cons_self)
    obtain ⟨m, r, hrleft, hr, hqr, htimes⟩ := ih hq (hpq.smooth hsmooth) (by rw [hleft])
      fun step hstep => hplain step (List.mem_cons_of_mem _ hstep)
    refine ⟨k + m, r, ?_, hr, hpq.trans hqr, ?_⟩
    · rw [hrleft, hleft, List.filterMap_cons]
      cases step.reading? with
      | none => simp
      | some d => simp
    · rw [List.flatMap_cons]
      exact htime.append htimes

/-! ### Commands -/

/-- Over a command, from its beginning on. -/
theorem leads_over_command (hdt : 0 < dt) (htimed : cfg.Timed) (hfits : p.Fits cfg s₀)
    (hsmooth : (p.settled cfg).Smooth cfg dt) {c : Command ℝ} {commands : List (Command ℝ)}
    {readings : List (Value ℝ)} (hleft : p.left = ⟨[], c :: commands, readings⟩)
    (hproper : c.Proper) (hserves : cfg.Serves c)
    (hread : c = .getDistance → p.sim.scene.station.rover.distance ≠ .null) :
    ∃ k q, q.left = ⟨[], commands, readings ++ (c.reading? p.sim.scene).toList⟩ ∧ q.Fits cfg s₀ ∧
      Leads cfg dt p k [(c, p.sim.scene)] q ∧ OnTime dt (c.waits cfg) (k * dt) := by
  obtain ⟨steps, hsteps, hcarry⟩ := Command.steps?_of_serves htimed hproper hserves hread
  -- the command begins
  obtain ⟨q, hqleft, hq, hpq⟩ :
      ∃ q, q.left = ⟨steps, commands, readings⟩ ∧ q.Fits cfg s₀ ∧
        Leads cfg dt p 0 [(c, p.sim.scene)] q := by
    refine leads_of_resume dt hfits ?_ ?_ rfl hfits.station ?_
    · rw [hleft]
      exact Execution.run_command hsteps
    · rw [hleft]
      exact Execution.begun_command hsteps
    · rw [hleft]
      have hsleeps := hcarry.sleeps
      simp only [Execution.sleepsLeft, Execution.commandsSleeps, List.map_nil, List.sum_nil,
        List.map_cons, List.sum_cons]
      omega
  have hqsmooth := hpq.smooth hsmooth
  -- its steps are taken: a single turn, or any number of other steps
  obtain ⟨k, r, hrleft, hr, hqr, htime⟩ : ∃ k r, r.left = ⟨[], commands,
      readings ++ steps.filterMap Step.reading?⟩ ∧ r.Fits cfg s₀ ∧ Leads cfg dt q k [] r ∧
      OnTime dt (steps.flatMap (Step.waits cfg)) (k * dt) := by
    rcases hcarry.shape with ⟨j, start, target, rfl⟩ | hplain
    · have hnow : q.sim.scene.clock.now = p.sim.scene.clock.now := by
        rw [hpq.now, Nat.cast_zero, zero_mul, add_zero]
      obtain ⟨k, r, hrleft, hr, hqr, htime⟩ := leads_over_turn hdt htimed.jointTime hq hqsmooth
        (by rw [hqleft, hnow])
      refine ⟨k, r, ?_, hr, hqr, htime⟩
      rw [hrleft, hqleft]
      exact congrArg _ (List.append_nil _).symm
    · obtain ⟨k, r, hrleft, hr, hqr, htime⟩ :=
        leads_over_steps hdt hq hqsmooth (by rw [hqleft]) hplain
      rw [hqleft] at hrleft
      exact ⟨k, r, hrleft, hr, hqr, htime⟩
  rw [hcarry.readings] at hrleft
  rw [hcarry.waits] at htime
  exact ⟨k, r, hrleft, hr, Nat.zero_add k ▸ hpq.trans hqr, htime⟩

/-- Over all commands that are left. Each of them begins in its turn, and hands out its reading. -/
theorem leads_over_commands (hdt : 0 < dt) (htimed : cfg.Timed) {commands : List (Command ℝ)}
    {readings : List (Value ℝ)} (hfits : p.Fits cfg s₀) (hsmooth : (p.settled cfg).Smooth cfg dt)
    (hleft : p.left = ⟨[], commands, readings⟩) (hproper : ∀ c ∈ commands, c.Proper)
    (hserves : ∀ c ∈ commands, cfg.Serves c)
    (hread : .getDistance ∈ commands → s₀.rover.distance ≠ .null) :
    ∃ k q log, q.left = ⟨[], [], readings ++ Command.readings log⟩ ∧
      q.Fits cfg s₀ ∧ Leads cfg dt p k log q ∧ log.map Prod.fst = commands ∧
      OnTime dt (commands.flatMap (Command.waits cfg)) (k * dt) := by
  induction commands generalizing p readings with
  | nil =>
    refine ⟨0, p, [], ?_, hfits, .refl p, rfl, onTime_nil⟩
    rw [hleft]
    exact congrArg _ (List.append_nil _).symm
  | cons c commands ih =>
    -- what the commands before have read and written is no null either
    have hdistance : c = .getDistance → p.sim.scene.station.rover.distance ≠ .null := by
      rintro rfl
      rcases hfits.station.distance with h | ⟨d, h⟩
      · rw [h]
        exact hread List.mem_cons_self
      · rw [h]
        exact nofun
    obtain ⟨k, q, hqleft, hq, hpq, htime⟩ := leads_over_command hdt htimed hfits hsmooth hleft
      (hproper c List.mem_cons_self) (hserves c List.mem_cons_self) hdistance
    obtain ⟨m, r, log, hrleft, hr, hqr, hlog, htimes⟩ := ih hq (hpq.smooth hsmooth) hqleft
      (fun c hc => hproper c (List.mem_cons_of_mem _ hc))
      (fun c hc => hserves c (List.mem_cons_of_mem _ hc))
      fun hmem => hread (List.mem_cons_of_mem _ hmem)
    refine ⟨k + m, r, (c, p.sim.scene) :: log, ?_, hr, hpq.trans hqr, ?_, ?_⟩
    · rw [hrleft, Command.readings_cons, List.append_assoc]
    · rw [List.map_cons, hlog]
    · rw [List.flatMap_cons]
      exact htime.append htimes

/-- A program with nothing left is at its end. -/
theorem settled_of_finished (hfits : p.Fits cfg s₀) {readings : List (Value ℝ)}
    (hleft : p.left = ⟨[], [], readings⟩) :
    p.settled cfg = { p.sim with job := some (.finished readings) } ∧ p.log cfg = [] := by
  have hnext : p.next cfg = { p.sim with job := some (.finished readings) } := by
    unfold next Simulation.advanceJob Execution.resume
    rw [hleft, Execution.run_finished]
  have hbegun :
      Execution.begun cfg p.left.commands p.left.steps p.left.readings p.sim.scene = [] := by
    rw [hleft]
    rfl
  unfold settled log
  rw [hbegun, hnext]
  exact Simulation.settle_of_no_waits cfg
    (s := { p.sim with job := some (.finished readings) }) nofun hfits.waits p.fuel

/-- A program whose next command has no steps is at its end. -/
theorem settled_of_no_steps (hfits : p.Fits cfg s₀) {c : Command ℝ} {commands : List (Command ℝ)}
    {readings : List (Value ℝ)} (hleft : p.left = ⟨[], c :: commands, readings⟩) {fault : Fault ℝ}
    (hsteps : c.steps? cfg p.sim.scene = .error fault) :
    p.settled cfg = { p.sim with job := some (.failed fault) } := by
  have hnext : p.next cfg = { p.sim with job := some (.failed fault) } := by
    unfold next Simulation.advanceJob Execution.resume
    rw [hleft, Execution.run_no_steps hsteps]
  unfold settled
  rw [hnext]
  exact (Simulation.settle_of_no_waits cfg
    (s := { p.sim with job := some (.failed fault) }) nofun hfits.waits p.fuel).1

end Stage

end ArmRover
