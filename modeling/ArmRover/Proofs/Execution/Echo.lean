import ArmRover.Execution.Basic
import ArmRover.Proofs.Station.Echo

/-!
# Executions that echo another one

A program for the active robot runs in a scene that echoes another one as it does there: only the
moments and the tickets that it remembers are shifted. Its steps are for that robot as well, so that
nothing of the other one is written.

* `Step.shift`, `Execution.shift`, `Progress.shift` — what is left of a program in a shifted run.
* `Step.For`, `Execution.For` — programs for one robot, `Command.for_of_steps?` — the steps of a
  command are for the robot of the command.
* `Scene.Echoes` — scenes that echo another one.
* `Command.steps?_echo`, `Step.echo_take`, `Execution.echo_run` — commands, steps, and whole
  stretches up to the next wait.
-/

namespace ArmRover

variable {α : Type}

/-! ### Programs for one robot -/

/-- A step that writes nothing of the other robot. -/
def Step.For (robot : Robot) : Step α → Prop
  | .turn .. | .pose _ | .preview _ | .grip .. => robot = .arm
  | .drive .. | .light _ => robot = .rover
  | .sleep _ | .reading _ | .fail _ => True

/-- Whether all steps that come again are for one robot. -/
def Step.Outcome.For (robot : Robot) : Step.Outcome α → Prop
  | .waits _ again => ∀ step ∈ again, step.For robot
  | .done | .reading _ => True

/-- What is left of a program for one robot. -/
structure Execution.For (robot : Robot) (rest : Execution α) : Prop where
  steps : ∀ step ∈ rest.steps, step.For robot
  commands : ∀ c ∈ rest.commands, c.robot = robot

/-- Whether what is left of a program is for one robot. -/
def Progress.For (robot : Robot) : Progress α → Prop
  | .waiting _ rest => rest.For robot
  | .done _ => True

variable [Scalar α]

namespace Step

variable {robot : Robot}

omit [Scalar α] in
theorem for_singleton {step : Step α} (h : step.For robot) : ∀ s ∈ [step], s.For robot :=
  List.forall_mem_singleton.mpr h

omit [Scalar α] in
theorem for_pair {step next : Step α} (h : step.For robot) (h' : next.For robot) :
    ∀ s ∈ [step, next], s.For robot :=
  List.forall_mem_cons.mpr ⟨h, for_singleton h'⟩

theorem for_pausing (v : Value α) : (Step.pausing v).For robot := by
  unfold Step.pausing Step.using
  split
  · exact trivial
  · exact trivial

omit [Scalar α] in
theorem for_follow (path : List (Joints α)) (seconds : α) :
    ∀ step ∈ Step.follow path seconds, step.For .arm := by
  intro step h
  obtain ⟨q, -, h⟩ := List.mem_flatMap.mp h
  have hboth : ∀ s ∈ [Step.pose q, .sleep seconds], s.For .arm := for_pair rfl trivial
  exact hboth step h

theorem for_toClose (cfg : Settings α) (effort : Option α) :
    ∀ step ∈ Step.toClose cfg effort, step.For .arm := by
  unfold Step.toClose
  split
  · exact for_singleton rfl
  · exact for_singleton rfl
  · refine for_pair rfl ?_
    unfold Step.using
    split
    · exact rfl
    · exact trivial

theorem for_toPose? {cfg : Settings α} {target : Point α} {current : Joints α}
    {steps : List (Step α)} (h : Step.toPose? cfg target current = .ok steps) :
    ∀ step ∈ steps, step.For .arm := by
  obtain ⟨goal, -, h⟩ := Action.bind_eq_ok.mp h
  obtain ⟨path, -, h⟩ := Action.bind_eq_ok.mp h
  obtain ⟨tips, -, h⟩ := Action.bind_eq_ok.mp h
  obtain rfl := Except.ok.inj h
  refine List.forall_mem_append.mpr
    ⟨List.forall_mem_cons.mpr ⟨rfl, ?_⟩, for_pair (for_pausing _) rfl⟩
  split
  · exact for_follow _ _
  · exact for_singleton trivial

end Step

/-- The steps of a command are for the robot of the command. -/
theorem Command.for_of_steps? {cfg : Settings α} {scene : Scene α} {c : Command α}
    {steps : List (Step α)} (h : c.steps? cfg scene = .ok steps) :
    ∀ step ∈ steps, step.For c.robot := by
  cases c with
  | moveJoint number angle =>
    simp only [Command.steps?] at h
    split at h
    · cases h
      exact Step.for_singleton rfl
    · cases h
  | openGripper =>
    cases h
    exact Step.for_pair rfl (Step.for_pausing _)
  | closeGripper effort =>
    cases h
    exact List.forall_mem_append.mpr
      ⟨Step.for_toClose cfg effort, Step.for_singleton (Step.for_pausing _)⟩
  | moveToPose target => exact Step.for_toPose? h
  | move vx wz =>
    cases h
    exact Step.for_pair rfl (Step.for_pausing _)
  | getDistance =>
    cases h
    refine List.forall_mem_cons.mpr ⟨Step.for_pausing _, ?_⟩
    split
    · exact List.forall_mem_nil _
    · exact Step.for_singleton trivial
  | setLight color =>
    cases h
    exact Step.for_pair rfl (Step.for_pausing _)
  | other robot kind => cases h

/-! ### Shifted programs -/

variable (d : Offset α)

/-- The same step in a shifted run: only the turning of a joint remembers when it began. -/
def Step.shift : Step α → Step α
  | .turn j start target since => .turn j start target (d.time since)
  | step => step

/-- The same outcome in a shifted run. -/
def Step.Outcome.shift : Step.Outcome α → Step.Outcome α
  | .waits ticket again => .waits (ticket + d.tickets) (again.map (Step.shift d))
  | outcome => outcome

/-- What is left of the same program in a shifted run. -/
def Execution.shift (rest : Execution α) : Execution α :=
  { rest with steps := rest.steps.map (Step.shift d) }

/-- The same progress in a shifted run. -/
def Progress.shift : Progress α → Progress α
  | .waiting ticket rest => .waiting (ticket + d.tickets) (rest.shift d)
  | .done readings => .done readings

/-- The first scene is the second one in a shifted run, as far as the active robot goes. -/
structure Scene.Echoes (active : Robot) (kept : Station α × Station α) (s t : Scene α) :
    Prop where
  station : Station.Echoes d active kept s.station t.station
  clock : s.clock = t.clock.shift d

variable {d} {active : Robot} {kept : Station α × Station α}

open ArmRover.Action

theorem Scene.Echoes.onStation {f g : Station α → Station α} {s t : Scene α}
    (h : Scene.Echoes d active kept s t)
    (hfg : Station.Echoes d active kept (f s.station) (g t.station)) :
    Scene.Echoes d active kept (s.onStation f) (t.onStation g) :=
  ⟨hfg, h.clock⟩

namespace Step

@[simp] theorem shift_turn (j : Joint) (start target since : α) :
    (Step.turn j start target since).shift d = .turn j start target (d.time since) := rfl

@[simp] theorem shift_pose (q : Joints α) : (Step.pose q).shift d = .pose q := rfl

@[simp] theorem shift_preview (path : Option (List (Point α))) :
    (Step.preview path).shift d = .preview path := rfl

@[simp] theorem shift_grip (mode : Gripper.Mode) (effort : Option α) :
    (Step.grip mode effort).shift d = .grip mode effort := rfl

@[simp] theorem shift_drive (vx wz : α) : (Step.drive vx wz).shift d = .drive vx wz := rfl

@[simp] theorem shift_light (color : String) : (Step.light color).shift d = .light color := rfl

@[simp] theorem shift_sleep (seconds : α) : (Step.sleep seconds).shift d = .sleep seconds := rfl

@[simp] theorem shift_fail (fault : Fault α) : (Step.fail fault).shift d = .fail fault := rfl

@[simp] theorem shift_pausing (v : Value α) : (Step.pausing v).shift d = Step.pausing v := by
  unfold Step.pausing Step.using
  split <;> rfl

@[simp] theorem map_shift_follow (path : List (Joints α)) (seconds : α) :
    (Step.follow path seconds).map (Step.shift d) = Step.follow path seconds := by
  induction path with
  | nil => rfl
  | cons q path ih =>
    have h : Step.follow (q :: path) seconds =
        .pose q :: .sleep seconds :: Step.follow path seconds := rfl
    rw [h, List.map_cons, List.map_cons, ih, shift_pose, shift_sleep]

@[simp] theorem map_shift_toClose (cfg : Settings α) (effort : Option α) :
    (Step.toClose cfg effort).map (Step.shift d) = Step.toClose cfg effort := by
  unfold Step.toClose
  split
  · rfl
  · rfl
  · unfold Step.using
    split <;> rfl

/-- A way to a point is fixed when it begins, apart from the clock. -/
theorem toPose?_shift (cfg : Settings α) (target : Point α) (current : Joints α) :
    (Step.toPose? cfg target current).map (List.map (Step.shift d)) =
      Step.toPose? cfg target current := by
  unfold Step.toPose?
  cases Arm.inverse? target.toList (some current.toList) cfg.solver.passes cfg.solver.tolerance with
  | error fault => rfl
  | ok goal =>
    cases hpath : Trajectory.rows? current.toList goal.toList cfg.motion.segments with
    | error fault => simp [hpath, bind, Except.bind, Except.map]
    | ok path =>
      cases htips : Trajectory.tips? path with
      | error fault => simp [hpath, htips, bind, Except.bind, Except.map]
      | ok tips =>
        cases hshare : Step.share? cfg.motion.poseTime (path.length - 1) <;>
          simp [hpath, htips, hshare, bind, Except.bind, Except.map, pure, Except.pure]

end Step

/-- Only times are remembered, so that runs at the same time do not differ. -/
@[simp] theorem Execution.shift_ofTickets (tickets : Nat) (rest : Execution α) :
    rest.shift (.ofTickets tickets) = rest := by
  have hstep : ∀ step : Step α, step.shift (.ofTickets tickets) = step := by
    intro step
    cases step <;> rfl
  unfold Execution.shift
  rw [List.map_id'' hstep]

/-- The steps of a command for the active robot. -/
theorem Command.steps?_echo (cfg : Settings α) {s t : Scene α}
    (h : Scene.Echoes d active kept s t) {c : Command α} (hc : c.robot = active) :
    c.steps? cfg s = (c.steps? cfg t).map (List.map (Step.shift d)) := by
  cases c with
  | moveJoint number angle =>
    obtain ⟨harm, -⟩ := h.station.arm hc.symm
    simp only [Command.steps?]
    cases Joint.numbered? number with
    | none => rfl
    | some j => simp [h.clock, harm, Except.map]
  | openGripper => simp [Command.steps?, Except.map]
  | closeGripper effort => simp [Command.steps?, Except.map]
  | moveToPose target =>
    obtain ⟨harm, -⟩ := h.station.arm hc.symm
    simp only [Command.steps?, harm, Step.toPose?_shift]
  | move vx wz => simp [Command.steps?, Except.map]
  | getDistance =>
    obtain ⟨hrover, -⟩ := h.station.rover hc.symm
    simp only [Command.steps?, hrover, Rover.shift, Except.map, List.map_cons, Step.shift_pausing]
    cases t.station.rover.distance <;> rfl
  | setLight color => simp [Command.steps?, Except.map]
  | other robot kind => rfl

/-! ### Taking steps -/

theorem Step.pause_echo {s t : Scene α} (h : Scene.Echoes d active kept s t) (p : Pause α)
    {again : List (Step α)} (hagain : ∀ step ∈ again, step.For active) :
    ((Step.pause p (again.map (Step.shift d)) s).1 = (Step.pause p again t).1.shift d ∧
        (Step.pause p again t).1.For active) ∧
      Scene.Echoes d active kept (Step.pause p (again.map (Step.shift d)) s).2
        (Step.pause p again t).2 := by
  unfold Step.pause
  rw [h.clock, Clock.dueAfter_shift]
  cases t.clock.dueAfter p with
  | none => exact ⟨⟨rfl, trivial⟩, h⟩
  | some due =>
    refine ⟨⟨rfl, hagain⟩, h.station, ?_⟩
    exact Clock.register_shift d t.clock due

/-- A write to the stations, with nothing to wait for. -/
theorem Step.echo_write {f : Station α → Station α}
    (hf : ∀ s t, Station.Echoes d active kept s t → Station.Echoes d active kept (f s) (f t)) :
    Related (Scene.Echoes d active kept) (fun o o' => o = o'.shift d ∧ o'.For active)
      (Step.write f) (Step.write f) := by
  unfold Step.write
  refine related_seq (related_modify fun s t h => h.onStation (hf _ _ h.station)) fun _ => ?_
  exact related_pure ⟨rfl, trivial⟩

/-- A step for the active robot. One case for each kind of step. -/
theorem Step.echo_take (cfg : Settings α) {step : Step α} (hfor : step.For active) :
    Related (Scene.Echoes d active kept) (fun o o' => o = o'.shift d ∧ o'.For active)
      (Step.take cfg (step.shift d)) (Step.take cfg step) := by
  cases step with
  | turn j start target since =>
    unfold Step.take Step.shift
    refine related_bind related_get fun s t hst => ?_
    rw [hst.clock, Clock.now_shift, d.time_sub_time]
    refine related_seq (related_lift _) fun progress => ?_
    refine related_seq (related_modify fun s t h => h.onStation
      (h.station.withArm hfor fun ha => by rw [ha])) fun _ => ?_
    refine related_ite Iff.rfl (fun _ => related_pure ⟨rfl, trivial⟩) fun _ => ?_
    have hagain : ∀ s ∈ [Step.turn j start target since], s.For active := Step.for_singleton hfor
    exact related_modifyGet fun s t h => Step.pause_echo h .nextFrame hagain
  | pose q => exact Step.echo_write fun s t h => h.withArm hfor fun ha => by rw [ha]
  | preview path => exact Step.echo_write fun s t h => h.withArm hfor fun ha => by rw [ha]
  | grip mode effort =>
    exact Step.echo_write fun s t h => h.withGripper hfor fun hg => by rw [hg]
  | drive vx wz =>
    unfold Step.take Step.shift
    refine related_bind related_get fun s t hst => ?_
    rw [hst.clock, Clock.now_shift]
    refine related_seq (related_on (fun s t h => h.station)
      (Station.echo_setVelocities hfor cfg.driving vx wz (some t.clock.now))
      fun s t p q h hpq => ⟨hpq, h.clock⟩) fun _ => ?_
    exact related_pure ⟨rfl, trivial⟩
  | light color =>
    exact Step.echo_write fun s t h => h.withRover hfor fun hr => by rw [hr]; rfl
  | sleep seconds =>
    exact related_modifyGet fun s t h =>
      Step.pause_echo h (.sleep seconds) (List.forall_mem_nil _)
  | reading distance => exact related_pure ⟨rfl, trivial⟩
  | fail fault => exact related_throw fault

namespace Execution

/-- The steps that are left at a wait are shifted, and so is its ticket. -/
theorem echo_takeSteps (cfg : Settings α) {steps : List (Step α)}
    (hfor : ∀ step ∈ steps, step.For active) (readings : List (Value α)) :
    Related (Scene.Echoes d active kept)
      (fun x y => x = (y.1, y.2.map fun wait => (wait.1 + d.tickets, wait.2.map (Step.shift d))) ∧
        ∀ wait ∈ y.2, ∀ step ∈ wait.2, step.For active)
      (takeSteps cfg (steps.map (Step.shift d)) readings) (takeSteps cfg steps readings) := by
  induction steps generalizing readings with
  | nil => exact related_pure ⟨rfl, nofun⟩
  | cons step rest ih =>
    have hrest : ∀ step ∈ rest, step.For active :=
      fun step h => hfor step (List.mem_cons_of_mem _ h)
    rw [List.map_cons]
    unfold takeSteps
    refine related_bind (Step.echo_take cfg (hfor step List.mem_cons_self)) ?_
    rintro _ outcome ⟨rfl, houtcome⟩
    cases outcome with
    | done => exact ih hrest readings
    | reading distance => exact ih hrest (readings ++ [distance])
    | waits ticket again =>
      refine related_pure ⟨?_, ?_⟩
      · rw [Option.map_some, List.map_append]
      · rintro _ ⟨⟩ step hstep
        exact (List.mem_append.mp hstep).elim (houtcome step) (hrest step)

/-- A program for the active robot runs up to its next wait in the same way. -/
theorem echo_run (cfg : Settings α) {commands : List (Command α)} {steps : List (Step α)}
    (hcommands : ∀ c ∈ commands, c.robot = active) (hsteps : ∀ step ∈ steps, step.For active)
    (readings : List (Value α)) :
    Related (Scene.Echoes d active kept) (fun p q => p = q.shift d ∧ q.For active)
      (run cfg commands (steps.map (Step.shift d)) readings) (run cfg commands steps readings) := by
  induction commands generalizing steps readings with
  | nil =>
    unfold run
    refine related_bind (echo_takeSteps cfg hsteps readings) ?_
    rintro _ ⟨readings, wait⟩ ⟨rfl, hwait⟩
    cases wait with
    | none => exact related_pure ⟨rfl, trivial⟩
    | some wait => exact related_pure ⟨rfl, hwait wait rfl, hcommands⟩
  | cons c rest ih =>
    unfold run
    refine related_bind (echo_takeSteps cfg hsteps readings) ?_
    rintro _ ⟨readings, wait⟩ ⟨rfl, hwait⟩
    cases wait with
    | some wait => exact related_pure ⟨rfl, hwait wait rfl, hcommands⟩
    | none =>
      have hc : c.robot = active := hcommands c List.mem_cons_self
      refine related_bind related_get fun s t hst => ?_
      dsimp only [Option.map_none]
      rw [Command.steps?_echo cfg hst hc]
      cases hnext : c.steps? cfg t with
      | error fault => exact related_throw fault
      | ok steps =>
        exact ih (fun c hc => hcommands c (List.mem_cons_of_mem _ hc))
          (hc ▸ Command.for_of_steps? hnext) readings

/-- Programs that agree on the commands for the active robot begin in the same way, if that robot
has come home in the same way. -/
theorem echo_begin_of_home (cfg : Settings α) {commands commands' : List (Command α)}
    (hsame : commands.filter (fun c => c.robot == active) =
      commands'.filter (fun c => c.robot == active)) {s t : Scene α}
    (hs : s.station.active = active) (ht : t.station.active = active)
    (hhome : Scene.Echoes d active kept (s.onStation (·.home cfg.toRig))
      (t.onStation (·.home cfg.toRig))) :
    Alike (Scene.Echoes d active kept) (fun p q => p = q.shift d ∧ q.For active)
      (begin cfg commands s) (begin cfg commands' t) := by
  have hcommands : ∀ c ∈ commands'.filter (fun c => c.robot == active), c.robot = active := by
    intro c hc
    exact eq_of_beq (List.mem_filter.mp hc).2
  have hfirst : ∀ step ∈ [Step.pausing cfg.pauses.reset], step.For active :=
    Step.for_singleton (Step.for_pausing _)
  have hrun := echo_run cfg hcommands hfirst [] _ _ hhome
  -- the first pause does not remember when it began
  rw [List.map_singleton, Step.shift_pausing] at hrun
  unfold begin
  rw [run_get_bind, run_get_bind, hs, ht, hsame]
  exact hrun

theorem echo_begin (cfg : Settings α) {commands commands' : List (Command α)}
    (hsame : commands.filter (fun c => c.robot == active) =
      commands'.filter (fun c => c.robot == active)) :
    Related (Scene.Echoes d active kept) (fun p q => p = q.shift d ∧ q.For active)
      (begin cfg commands) (begin cfg commands') := fun _ _ h =>
  echo_begin_of_home cfg hsame h.station.active_left h.station.active_right
    (h.onStation (h.station.home _))

theorem echo_resume (cfg : Settings α) {rest : Execution α} (hfor : rest.For active) :
    Related (Scene.Echoes d active kept) (fun p q => p = q.shift d ∧ q.For active)
      (resume cfg (rest.shift d)) (resume cfg rest) :=
  echo_run cfg hfor.commands hfor.steps rest.readings

/-- The bound on sleeps is the same in a shifted run. -/
theorem sleepsLeft_shift (cfg : Settings α) (rest : Execution α) :
    (rest.shift d).sleepsLeft cfg = rest.sleepsLeft cfg := by
  have h : stepSleeps ∘ Step.shift d = stepSleeps := by
    funext step
    cases step <;> rfl
  simp only [sleepsLeft, shift, List.map_map, h]

end Execution

end ArmRover
