import ArmRover.Proofs.Arm.Way
import ArmRover.Proofs.Execution.Sleeps
import ArmRover.Proofs.Settings.Standard

/-!
# The plan of a program

What a program does can be told from the settings before it runs: how long each of its waits is
meant to take, and which of its commands hand out a reading. The steps of a command follow this
plan, for settings that are of use to the command.

* `Settings.Timed`, `Settings.Serves`, `Command.Proper` — settings and commands that are of use.
* `Command.waits`, `Settings.waits` — the nominal durations of the waits of a command, and of a
  program.
* `Command.reading?` — the reading that a command hands out, `Command.readings` — those of many
  commands.
* `Step.CarryOut` — steps that carry a command out by the plan, `Command.steps?_of_serves` — its
  steps are such.
-/

namespace ArmRover

/-! ### Settings that are of use -/

/-- Plain data that is a number and not negative. -/
def Value.IsDuration (v : Value ℝ) : Prop := v.IsNumber ∧ 0 ≤ v.amount

/-- The durations of movements and the pauses of programs are numbers and not negative. -/
structure Settings.Timed (cfg : Settings ℝ) : Prop where
  jointTime : cfg.motion.jointTime.IsDuration
  poseTime : cfg.motion.poseTime.IsDuration
  previewTime : cfg.motion.previewTime.IsDuration
  reset : cfg.pauses.reset.IsDuration
  gripper : cfg.pauses.gripper.IsDuration
  velocity : cfg.pauses.velocity.IsDuration
  distance : cfg.pauses.distance.IsDuration
  light : cfg.pauses.light.IsDuration

/-- A decimal number without a sign is a duration. -/
theorem Value.isDuration_decimal (m e : Nat) :
    (real (@OfScientific.ofScientific ℝ Scalar.instOfScientific m true e)).IsDuration := by
  refine ⟨⟨_, rfl⟩, ?_⟩
  rw [amount_decimal]
  positivity

/-- The durations of the built-in configuration. -/
theorem Settings.timed_standard : (Settings.standard : Settings ℝ).Timed where
  jointTime := Value.isDuration_decimal _ _
  poseTime := Value.isDuration_decimal _ _
  previewTime := Value.isDuration_decimal _ _
  reset := Value.isDuration_decimal _ _
  gripper := Value.isDuration_decimal _ _
  velocity := Value.isDuration_decimal _ _
  distance := Value.isDuration_decimal _ _
  light := Value.isDuration_decimal _ _

/-- A command that a rule carries out, for a joint from 0 to 4 if it is for one. -/
def Command.Proper : Command ℝ → Prop
  | .moveJoint number _ => 0 ≤ number ∧ number ≤ 4
  | c => c.handled = true

/-- What a command reads of the settings, apart from times, is of use to it. -/
def Settings.Serves (cfg : Settings ℝ) : Command ℝ → Prop
  | .closeGripper none =>
    cfg.grip.maxEffort = .null ∨ ∃ e, cfg.grip.maxEffort.numeric? = .ok e
  | .moveToPose _ =>
    (∃ n : Int, cfg.motion.segments.number? = .ok (.whole n) ∧ 1 ≤ n) ∧
      ∃ n : Int, cfg.solver.passes.number? = .ok (.whole n) ∧
        (0 < n → cfg.solver.tolerance.IsNumber)
  | .move .. => cfg.driving.maxLinear.IsNumber ∧ cfg.driving.maxAngular.IsNumber
  | .getDistance => cfg.senses.range ≠ .null
  | _ => True

/-- The built-in configuration is of use to every command. -/
theorem Settings.serves_standard (c : Command ℝ) : (Settings.standard : Settings ℝ).Serves c := by
  cases c with
  | closeGripper effort =>
    cases effort with
    | none => exact .inr ⟨_, rfl⟩
    | some e => trivial
  | moveToPose target => exact ⟨⟨20, rfl, by decide⟩, 50, rfl, fun _ => ⟨_, rfl⟩⟩
  | move vx wz => exact ⟨⟨_, rfl⟩, ⟨_, rfl⟩⟩
  | getDistance => exact nofun
  | _ => trivial

/-! ### The plan -/

/-- The number of segments of a trajectory. -/
def Settings.Motion.parts (m : Settings.Motion ℝ) : Nat :=
  match m.segments.number? with
  | .ok (.whole n) => n.toNat
  | _ => 0

/-- The nominal durations of the waits of a command. -/
noncomputable def Command.waits (cfg : Settings ℝ) : Command ℝ → List ℝ
  | .moveJoint .. => [cfg.motion.jointTime.amount]
  | .openGripper | .closeGripper _ => [cfg.pauses.gripper.amount]
  | .moveToPose _ =>
    List.replicate cfg.motion.parts (cfg.motion.poseTime.amount / cfg.motion.parts) ++
      [cfg.motion.previewTime.amount]
  | .move .. => [cfg.pauses.velocity.amount]
  | .getDistance => [cfg.pauses.distance.amount]
  | .setLight _ => [cfg.pauses.light.amount]
  | .other .. => []

/-- The nominal durations of the waits of a program: first the one after the robot went home. -/
noncomputable def Settings.waits (cfg : Settings ℝ) (commands : List (Command ℝ)) : List ℝ :=
  cfg.pauses.reset.amount :: commands.flatMap (Command.waits cfg)

/-- The reading that a command hands out when it begins in a scene. -/
def Command.reading? (scene : Scene ℝ) : Command ℝ → Option (Value ℝ)
  | .getDistance => some scene.station.rover.distance
  | _ => none

/-- The readings of commands that begin in scenes, in order. -/
def Command.readings (log : List (Command ℝ × Scene ℝ)) : List (Value ℝ) :=
  log.filterMap fun entry => entry.1.reading? entry.2

/-- Whether a command hands out a reading. -/
def Command.reads : Command ℝ → Bool
  | .getDistance => true
  | _ => false

theorem Command.reads_of_arm {c : Command ℝ} (h : c.robot = .arm) : c.reads = false := by
  cases c with
  | getDistance => cases h
  | _ => rfl

theorem Command.readings_cons (c : Command ℝ) (scene : Scene ℝ)
    (log : List (Command ℝ × Scene ℝ)) :
    readings ((c, scene) :: log) = (c.reading? scene).toList ++ readings log := by
  unfold readings
  rw [List.filterMap_cons]
  cases c.reading? scene <;> rfl

theorem Command.length_readings (log : List (Command ℝ × Scene ℝ)) :
    (readings log).length = (log.map Prod.fst).countP reads := by
  have hreads : ∀ entry : Command ℝ × Scene ℝ,
      (entry.1.reading? entry.2).isSome = entry.1.reads := by
    rintro ⟨c, scene⟩
    cases c <;> rfl
  unfold readings
  rw [List.length_filterMap_eq_countP, List.countP_map]
  exact List.countP_congr fun entry _ => by rw [hreads]; rfl

/-! ### The steps of a command follow the plan -/

namespace Step

/-- The nominal durations of the waits of a step. -/
noncomputable def waits (cfg : Settings ℝ) : Step ℝ → List ℝ
  | .turn .. => [cfg.motion.jointTime.amount]
  | .sleep seconds => [seconds]
  | _ => []

/-- The reading that a step hands out. -/
def reading? : Step ℝ → Option (Value ℝ)
  | .reading distance => some distance
  | _ => none

/-- A step that does not fail, and that waits at most once. -/
def Plain (cfg : Settings ℝ) : Step ℝ → Prop
  | .turn .. | .fail _ => False
  | .drive .. => cfg.driving.maxLinear.IsNumber ∧ cfg.driving.maxAngular.IsNumber
  | _ => True

/-- Steps that carry a command out by the plan, from a scene on. -/
structure CarryOut (cfg : Settings ℝ) (c : Command ℝ) (scene : Scene ℝ) (steps : List (Step ℝ)) :
    Prop where
  shape : (∃ j start target, steps = [.turn j start target scene.clock.now]) ∨
    ∀ step ∈ steps, step.Plain cfg
  waits : steps.flatMap (waits cfg) = c.waits cfg
  readings : steps.filterMap reading? = (c.reading? scene).toList
  sleeps : (steps.map Execution.stepSleeps).sum ≤ Execution.commandSleeps cfg c

theorem seconds?_eq {v : Value ℝ} (h : v.IsNumber) : seconds? v = .ok v.amount := by
  obtain ⟨n, hn⟩ := h
  rw [Value.amount_of_number hn]
  unfold seconds?
  rw [hn]
  show (if n.atMost (Scalar.ofInt 0) = true then Except.ok n.value else n.scalar?) = _
  rw [n.scalar?_eq_value, ite_self]

/-- A pause of useful length is a sleep. -/
theorem pausing_eq {v : Value ℝ} (h : v.IsNumber) : pausing v = .sleep v.amount := by
  unfold pausing
  rw [seconds?_eq h]
  rfl

theorem share?_eq {v : Value ℝ} (h : v.IsNumber) (n : Nat) :
    share? v n = .ok (v.amount / n) := by
  obtain ⟨m, hm⟩ := h
  rw [Value.amount_of_number hm]
  unfold share?
  rw [hm]
  exact m.quotient?_eq_value n

/-! ### Following a path -/

section Path

variable (path : List (Joints ℝ)) (seconds : ℝ)

theorem plain_of_mem_follow {cfg : Settings ℝ} {step : Step ℝ} (h : step ∈ follow path seconds) :
    step.Plain cfg := by
  obtain ⟨q, -, hq⟩ := List.mem_flatMap.mp h
  rcases List.mem_cons.mp hq with rfl | hq
  · trivial
  · rcases List.mem_singleton.mp hq with rfl
    trivial

theorem waits_follow (cfg : Settings ℝ) :
    (follow path seconds).flatMap (waits cfg) = List.replicate path.length seconds := by
  induction path with
  | nil => rfl
  | cons q path ih =>
    rw [follow_cons, List.flatMap_cons, List.flatMap_cons, ih]
    rfl

theorem readings_follow : (follow path seconds).filterMap reading? = [] := by
  induction path with
  | nil => rfl
  | cons q path ih => exact ih

end Path

/-- There is a way to a point, for settings that are of use. -/
theorem exists_way_of_serves {cfg : Settings ℝ} {target : Point ℝ}
    (hserves : cfg.Serves (.moveToPose target)) (current : Joints ℝ) :
    ∃ goal way, Arm.Way cfg target current goal way := by
  obtain ⟨⟨n, hsegments, hn⟩, passes, hpasses, htolerance⟩ := hserves
  exact Arm.exists_way hsegments hn hpasses htolerance target current

/-- The steps along a way: each of its configurations is held for the same share of the time, and
the path of the tip is shown from before the first one until a while after the last one. -/
noncomputable def along (cfg : Settings ℝ) (start : Joints ℝ) (way : List (Joints ℝ)) :
    List (Step ℝ) :=
  .preview (some (Trajectory.tips (start :: way))) ::
    follow way (cfg.motion.poseTime.amount / way.length) ++
      [.sleep cfg.motion.previewTime.amount, .preview none]

/-- The steps to a point are those along a way. -/
theorem toPose?_of_way {cfg : Settings ℝ} (hpose : cfg.motion.poseTime.IsNumber)
    (hpreview : cfg.motion.previewTime.IsNumber) {target : Point ℝ} {current goal : Joints ℝ}
    {way : List (Joints ℝ)} (h : Arm.Way cfg target current goal way) :
    toPose? cfg target current = .ok (along cfg current way) := by
  unfold toPose? along
  rw [h.answer]
  show (Trajectory.rows? current.toList goal.toList cfg.motion.segments >>= _) = _
  rw [h.rows]
  show (Trajectory.tips? (current :: way) >>= _) = _
  rw [Trajectory.tips?_eq]
  show Except.ok _ = _
  rw [List.length_cons, Nat.add_sub_cancel, share?_eq hpose, pausing_eq hpreview]
  rfl

theorem toPose?_of_serves {cfg : Settings ℝ} (htimed : cfg.Timed) {target : Point ℝ}
    (hserves : cfg.Serves (.moveToPose target)) (current : Joints ℝ) :
    ∃ points path, path.length = cfg.motion.parts ∧ toPose? cfg target current =
      .ok (.preview (some points) ::
        follow path (cfg.motion.poseTime.amount / cfg.motion.parts) ++
          [.sleep cfg.motion.previewTime.amount, .preview none]) := by
  obtain ⟨goal, way, hway⟩ := exists_way_of_serves hserves current
  have hparts : way.length = cfg.motion.parts := by
    unfold Settings.Motion.parts
    rw [hway.segments]
    rfl
  refine ⟨Trajectory.tips (current :: way), way, hparts, ?_⟩
  rw [toPose?_of_way htimed.poseTime.1 htimed.previewTime.1 hway, along, hparts]

/-- With a number of segments that is not whole there is no way to a point. -/
theorem toPose?_of_real {cfg : Settings ℝ} {x : ℝ} (h : cfg.motion.segments.number? = .ok (.real x))
    (target : Point ℝ) (current : Joints ℝ) :
    ∃ fault, toPose? cfg target current = .error fault := by
  unfold toPose?
  cases hgoal : Arm.inverse? target.toList (some current.toList) cfg.solver.passes
    cfg.solver.tolerance with
  | error fault => exact ⟨fault, rfl⟩
  | ok goal =>
    obtain ⟨fault, hfault⟩ := Trajectory.rows?_of_real h current goal
    refine ⟨fault, ?_⟩
    show (Trajectory.rows? current.toList goal.toList cfg.motion.segments >>= _) = _
    rw [hfault]
    rfl

theorem toClose_of_serves {cfg : Settings ℝ} {effort : Option ℝ}
    (hserves : cfg.Serves (.closeGripper effort)) :
    (∃ e, toClose cfg effort = [.grip .closed e]) ∨
      ∃ e, toClose cfg effort = [.grip .closed none, .grip .closed e] := by
  unfold toClose
  split
  · exact .inl ⟨_, rfl⟩
  · exact .inl ⟨_, rfl⟩
  · next hnull =>
    obtain ⟨e, he⟩ := hserves.resolve_left hnull
    rw [he]
    exact .inr ⟨_, rfl⟩

end Step

/-- A proper command has steps, and they carry it out by the plan. -/
theorem Command.steps?_of_serves {cfg : Settings ℝ} (htimed : cfg.Timed) {c : Command ℝ}
    (hproper : c.Proper) (hserves : cfg.Serves c) {scene : Scene ℝ}
    (hread : c = .getDistance → scene.station.rover.distance ≠ .null) :
    ∃ steps, c.steps? cfg scene = .ok steps ∧ Step.CarryOut cfg c scene steps := by
  cases c with
  | moveJoint number angle =>
    obtain ⟨j, hj⟩ : ∃ j, Joint.numbered? number = some j := by
      obtain ⟨hlow, hhigh⟩ := hproper
      have hnumber : number = 0 ∨ number = 1 ∨ number = 2 ∨ number = 3 ∨ number = 4 := by omega
      rcases hnumber with rfl | rfl | rfl | rfl | rfl
      all_goals exact ⟨_, rfl⟩
    refine ⟨[.turn j (scene.station.arm.joints.get j) angle scene.clock.now], ?_,
      .inl ⟨_, _, _, rfl⟩, rfl, rfl, le_rfl⟩
    simp only [Command.steps?, hj]
  | openGripper =>
    refine ⟨_, rfl, ?_⟩
    rw [Step.pausing_eq htimed.gripper.1]
    refine ⟨.inr ?_, rfl, rfl, le_rfl⟩
    simp [Step.Plain]
  | closeGripper effort =>
    refine ⟨_, rfl, ?_⟩
    rw [Step.pausing_eq htimed.gripper.1]
    rcases Step.toClose_of_serves hserves with ⟨e, he⟩ | ⟨e, he⟩
    all_goals
      rw [he]
      refine ⟨.inr ?_, rfl, rfl, le_rfl⟩
      simp [Step.Plain]
  | moveToPose target =>
    obtain ⟨points, path, hlength, hsteps⟩ :=
      Step.toPose?_of_serves htimed hserves scene.station.arm.joints
    -- the preview, the path with a share of the time after each pose, and the end of the preview
    refine ⟨_, hsteps, .inr ?_, ?_, ?_, ?_⟩
    · intro step hstep
      rcases List.mem_append.mp hstep with hstep | hstep
      · rcases List.mem_cons.mp hstep with rfl | hstep
        · trivial
        · exact Step.plain_of_mem_follow _ _ hstep
      · rcases List.mem_cons.mp hstep with rfl | hstep
        · trivial
        · rcases List.mem_singleton.mp hstep with rfl
          trivial
    · rw [List.flatMap_append, List.flatMap_cons, Step.waits_follow, hlength]
      rfl
    · rw [List.filterMap_append]
      show List.filterMap Step.reading? (Step.follow path _) ++ [] = []
      rw [Step.readings_follow]
      rfl
    · have hsleeps : Execution.commandSleeps cfg (.moveToPose target) = cfg.motion.parts + 1 := by
        obtain ⟨⟨n, hsegments, -⟩, -⟩ := hserves
        unfold Execution.commandSleeps Settings.Motion.parts
        rw [hsegments]
      rw [hsleeps, List.map_append, List.sum_append, List.map_cons, List.sum_cons,
        Step.sleeps_follow, hlength]
      show 0 + cfg.motion.parts + 1 ≤ _
      omega
  | move vx wz =>
    refine ⟨_, rfl, ?_⟩
    rw [Step.pausing_eq htimed.velocity.1]
    refine ⟨.inr ?_, rfl, rfl, le_rfl⟩
    intro step hstep
    rcases List.mem_cons.mp hstep with rfl | hstep
    · exact hserves
    · rcases List.mem_singleton.mp hstep with rfl
      trivial
  | getDistance =>
    refine ⟨[.sleep cfg.pauses.distance.amount, .reading scene.station.rover.distance], ?_, .inr ?_,
      rfl, rfl, le_rfl⟩
    · have hnull := hread rfl
      unfold Command.steps?
      rw [Step.pausing_eq htimed.distance.1]
      cases hdistance : scene.station.rover.distance with
      | null => exact absurd hdistance hnull
      | bool b => rfl
      | number n => rfl
      | text s => rfl
      | list items => rfl
      | map fields => rfl
    · simp [Step.Plain]
  | setLight color =>
    refine ⟨_, rfl, ?_⟩
    rw [Step.pausing_eq htimed.light.1]
    refine ⟨.inr ?_, rfl, rfl, le_rfl⟩
    simp [Step.Plain]
  | other robot kind => exact absurd hproper Bool.false_ne_true

end ArmRover
