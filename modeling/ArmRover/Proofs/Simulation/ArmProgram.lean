import ArmRover.Proofs.Simulation.Finish
import ArmRover.Proofs.Simulation.Recorded

/-!
# What a program does to the arm

However the frames of a program for the arm fall, it leaves the arm in the same posture: each joint
as the last command for it says, and the gripper as the last one for that says. On the way there a
joint turns straight to its target, and nothing else turns with it.

* `Simulation.snapshots` — what is seen of the joints in frames of any lengths.
* `Posture.watch`, `Turn.watch` — the posture that a program aims at, and its turns, `recorder_goal`,
  `recorder_turn` — stretches keep them.
* `Simulation.program_leaves_arm` — programs for the arm.
-/

namespace ArmRover

open ArmRover.Action

/-- What is seen of the joints in frames of some lengths, one after the other. -/
def Simulation.snapshots {α : Type} [Scalar α] (cfg : Settings α) (times : List α)
    (s : Simulation α) : List (Snapshot α) :=
  s.recorded (fun rest => Execution.snapshots cfg rest.commands rest.steps rest.readings) cfg times

variable {cfg : Settings ℝ}

/-! ### What stretches keep -/

/-- The goal of a program. -/
noncomputable def Posture.watch (cfg : Settings ℝ) (goal : Posture ℝ) :
    Watch (Posture ℝ) (Snapshot ℝ) where
  view := Station.posture
  record rest := Execution.snapshots cfg rest.commands rest.steps rest.readings
  Keeps _ rest p _ := (∀ c ∈ rest.commands, c.posed = false) ∧ rest.goal cfg p = goal
  Ends _ p := p = goal
  Fails _ := True

/-- The posture that a program aims at stays the same, and in the end it is there. -/
theorem recorder_goal (cfg : Settings ℝ) (goal : Posture ℝ) : Recorder cfg (goal.watch cfg) where
  unmoved := Simulation.posture_pass cfg
  homed _ _ := rfl
  later _ h := h
  waits {_ rest next s t ticket} hrun h := by
    refine ⟨fun c hc => h.1 c ((Execution.suffix_of_run hrun).subset hc), ?_⟩
    exact (Execution.aim_of_run hrun h.1).trans h.2
  ends {_ rest s t readings} hrun h := (Execution.aim_of_run hrun h.1).trans h.2
  fails _ _ := trivial

/-- The course of a turn. -/
noncomputable def Turn.watch (cfg : Settings ℝ) (turn : Turn ℝ) :
    Watch (Posture ℝ) (Snapshot ℝ) where
  view := Station.posture
  record rest := Execution.snapshots cfg rest.commands rest.steps rest.readings
  Keeps log rest p now := turn.Course cfg (Snapshot.during turn.after.length log) rest p now
  Ends log _ := turn.Swept cfg (Snapshot.during turn.after.length log)
  Fails _ := True

/-- A turn goes its way from stretch to stretch, and in the end it is done. -/
theorem recorder_turn (cfg : Settings ℝ) (turn : Turn ℝ) : Recorder cfg (turn.watch cfg) where
  unmoved := Simulation.posture_pass cfg
  homed _ _ := rfl
  later hle h := h.later hle
  waits {log rest next s t ticket} hrun h := by
    show turn.Course cfg (Snapshot.during _ (log ++ Execution.snapshots cfg _ _ _ s)) _ _ _
    rw [Snapshot.during_append, Snapshot.during_snapshots]
    exact Turn.course_of_run h hrun
  ends {log rest s t readings} hrun h := by
    show turn.Swept cfg (Snapshot.during _ (log ++ Execution.snapshots cfg _ _ _ s))
    rw [Snapshot.during_append, Snapshot.during_snapshots]
    exact Turn.course_of_run h hrun
  fails _ _ := trivial

/-! ### Commands for the rover -/

namespace Command

/-- Commands for the rover do not change what a program for the arm aims at. -/
theorem foldl_aim_filter (cfg : Settings ℝ) (commands : List (Command ℝ)) (p : Posture ℝ) :
    (commands.filter fun c => c.robot == .arm).foldl (aim cfg) p = commands.foldl (aim cfg) p := by
  rw [List.foldl_filter]
  congr 1
  funext p c
  cases c with
  | other robot kind => exact ite_self _
  | _ => rfl

/-- Commands leave the joints of an arm at home in their ranges. -/
theorem within_leaves (commands : List (Command ℝ)) (j : Joint) :
    j.within (leaves commands j) = true := by
  unfold leaves
  cases (commands.filterMap (angle? j)).getLast? with
  | none => exact Joint.within_zero j
  | some angle => exact Joint.within_clamp (Scalar.isNaN_real _)

theorem joints_foldl_home (cfg : Settings ℝ) (commands : List (Command ℝ)) (j : Joint) :
    (commands.foldl (aim cfg) (.home cfg.grip)).joints.get j = leaves commands j := by
  rw [joints_foldl_aim]
  cases j <;> rfl

end Command

namespace Simulation

section Programs

variable {s : Simulation ℝ} {commands : List (Command ℝ)} {times : List ℝ}
  {readings : List (Value ℝ)}

/-- A program leaves the arm in the posture that its commands aim at from home. -/
theorem posture_of_finished (hactive : s.scene.station.active = .arm) (hidle : s.running = false)
    (hposed : ∀ c ∈ commands, c.posed = false) (htimes : ∀ dt ∈ times, 0 ≤ dt)
    (hend : ((s.ask cfg (.start commands)).2.after cfg (times.map .frame)).job =
      some (.finished readings)) :
    ((s.ask cfg (.start commands)).2.after cfg (times.map .frame)).scene.station.posture =
      commands.foldl (Command.aim cfg) (.home cfg.grip) := by
  refine (recorder_goal cfg _).ends_of_finished hactive hidle htimes ⟨?_, ?_⟩ hend
  · exact fun c hc => hposed c (List.mem_of_mem_filter hc)
  · show (commands.filter _).foldl (Command.aim cfg) ((Step.pausing _).aim _) = _
    rw [Step.aim_pausing, Command.foldl_aim_filter]
    rfl

/-- Each command of a program that turns a joint is seen to do so. -/
theorem swept_of_finished (hactive : s.scene.station.active = .arm) (hidle : s.running = false)
    (hposed : ∀ c ∈ commands, c.posed = false) (htimes : ∀ dt ∈ times, 0 ≤ dt)
    (hend : ((s.ask cfg (.start commands)).2.after cfg (times.map .frame)).job =
      some (.finished readings))
    {before after : List (Command ℝ)} {number : Int} {angle : ℝ} {j : Joint}
    (hown : commands.filter (fun c => c.robot == .arm) = before ++ .moveJoint number angle :: after)
    (hnumber : Joint.numbered? number = some j) :
    Turn.Swept ⟨j, angle, (before.foldl (Command.aim cfg) (.home cfg.grip)).joints, after⟩ cfg
      (Snapshot.during after.length ((s.ask cfg (.start commands)).2.snapshots cfg times)) := by
  let turn : Turn ℝ := ⟨j, angle, (before.foldl (Command.aim cfg) (.home cfg.grip)).joints, after⟩
  refine (recorder_turn cfg turn).ends_of_finished hactive hidle htimes ?_ hend
  refine .ahead number before hnumber hown (fun c hc => ?_) ?_
  · have hmem : c ∈ commands.filter fun c => c.robot == .arm := by
      rw [hown]
      exact List.mem_append_left _ hc
    exact hposed c (List.mem_of_mem_filter hmem)
  · show (before.foldl (Command.aim cfg) ((Step.pausing _).aim _)).joints = _
    rw [Step.aim_pausing]
    rfl

end Programs

/-- A program for the arm that turns joints, and opens and closes the gripper, among any commands for
the rover, in frames of any positive lengths. When it has come to its end, each joint is at the
angle of the last command for it, brought into its range, or at zero; the gripper is as the last
command for it asked; and the effort threshold is the last one that was set, brought between 0 and
1, where a command without one sets that of the settings, and the one of the settings as it is if
there was none. While a command turns a joint, the joint goes from where the commands before have
left it to the angle of the command, brought into its range, without going back or beyond, and all
other joints stay where they were. -/
theorem program_leaves_arm {s : Simulation ℝ} {commands : List (Command ℝ)} {times : List ℝ}
    {readings : List (Value ℝ)} (hactive : s.scene.station.active = .arm)
    (hidle : s.running = false) (hposed : ∀ c ∈ commands, c.posed = false)
    (htimes : ∀ dt ∈ times, 0 < dt)
    (hend : ((s.ask cfg (.start commands)).2.after cfg (times.map .frame)).job =
      some (.finished readings)) :
    let started := (s.ask cfg (.start commands)).2
    let last := (started.after cfg (times.map .frame)).scene.station
    (∀ j, last.arm.joints.get j = Command.leaves commands j) ∧
    last.gripper.mode = (commands.filterMap Command.mode?).getLast?.getD .closed ∧
    last.gripper.maxEffort = ((commands.filterMap (Command.threshold? cfg)).getLast?.map
      fun e => Value.real (Scalar.clamp e 0 1)).getD cfg.grip.maxEffort ∧
    ∀ before number angle after j,
      commands.filter (fun c => c.robot == .arm) =
        before ++ Command.moveJoint number angle :: after →
      Joint.numbered? number = some j →
      let seen := Snapshot.during after.length (started.snapshots cfg times)
      (∃ first, seen.head? = some first ∧ ∀ k, first.get k = Command.leaves before k) ∧
      seen.getLast?.map (·.get j) = some (j.clamp angle) ∧
      (∀ q ∈ seen, ∀ k ≠ j, q.get k = Command.leaves before k) ∧
      (seen.map (·.get j)).Pairwise fun x y => y ∈ Set.uIcc x (j.clamp angle) := by
  intro started last
  have hforward : ∀ dt ∈ times, 0 ≤ dt := fun dt hdt => (htimes dt hdt).le
  have hposture : last.posture = commands.foldl (Command.aim cfg) (.home cfg.grip) :=
    posture_of_finished hactive hidle hposed hforward hend
  refine ⟨fun j => ?_, ?_, ?_, ?_⟩
  · exact (congrArg (·.joints.get j) hposture).trans (Command.joints_foldl_home cfg commands j)
  · exact (congrArg Posture.mode hposture).trans (Command.mode_foldl_aim cfg commands _)
  · exact (congrArg Posture.maxEffort hposture).trans (Command.maxEffort_foldl_aim cfg commands _)
  · intro before number angle after j hown hnumber seen
    have hswept := swept_of_finished hactive hidle hposed hforward hend hown hnumber
    have hstart := Command.joints_foldl_home cfg before
    refine ⟨⟨_, hswept.head?, hstart⟩, ?_, ?_, ?_⟩
    · rw [hswept.getLast?]
      exact congrArg some (Joints.get_set_self _ _ _)
    · exact fun q hq k hk => (hswept.get_of_ne hk q hq).trans (hstart k)
    · exact hswept.pairwise (hstart j ▸ Command.within_leaves before j)

/-- With the built-in settings the base is turned too far, and then back; the gripper is opened and
closed with too much effort, and the command for the rover is passed over. -/
theorem program_leaves_arm_standard :
    let cfg : Settings ℝ := .standard
    let s := new cfg []
    let commands : List (Command ℝ) :=
      [.moveJoint 0 400, .openGripper, .getDistance, .moveJoint 0 (-30), .closeGripper (some 2)]
    let started := (s.ask cfg (.start commands)).2
    s.scene.station.active = .arm ∧ s.running = false ∧ (∀ c ∈ commands, c.posed = false) ∧
      ∃ n readings,
        let times := List.replicate n (1 / 60)
        let last := (started.after cfg (times.map .frame)).scene.station
        (∀ dt ∈ times, 0 < dt) ∧
        (started.after cfg (times.map .frame)).job = some (.finished readings) ∧
        last.arm.joints.get .base = -30 ∧ last.arm.joints.get .elbow = 0 ∧
        last.gripper.mode = .closed ∧ last.gripper.maxEffort = .real 1 ∧
        (Snapshot.during 3 (started.snapshots cfg times)).getLast?.map (·.get .base) = some 180 := by
  intro cfg s commands started
  have hidle : s.running = false := rfl
  have hposed : ∀ c ∈ commands, c.posed = false := by decide
  have hdt : (0 : ℝ) < 1 / 60 := by norm_num
  have hsmooth : started.Smooth cfg (1 / 60) :=
    smooth_of_steady Settings.steady_standard _ ⟨rfl, ⟨_, rfl⟩⟩
  have hproper : ∀ c ∈ commands, c.robot = started.scene.station.active →
      c.Proper ∧ cfg.Serves c := by
    intro c hc hrobot
    simp only [commands, List.mem_cons, List.not_mem_nil, or_false] at hc
    rcases hc with rfl | rfl | rfl | rfl | rfl
    · exact ⟨⟨by decide, by decide⟩, trivial⟩
    · exact ⟨rfl, trivial⟩
    · exact absurd hrobot nofun
    · exact ⟨⟨by decide, by decide⟩, trivial⟩
    · exact ⟨rfl, trivial⟩
  obtain ⟨n, -, hend, -⟩ :=
    exists_end_of_fresh hdt Settings.timed_standard rfl rfl hsmooth hproper
  rw [frames_eq_after] at hend
  have htimes : ∀ dt ∈ List.replicate n (1 / 60 : ℝ), 0 < dt := fun dt hmem =>
    (List.mem_replicate.mp hmem).2 ▸ hdt
  obtain ⟨hjoints, hmode, heffort, hturns⟩ :=
    program_leaves_arm rfl hidle hposed htimes hend
  have hclamp : ∀ angle : ℝ, Joint.base.clamp angle = min (max angle (-180)) 180 := fun angle => by
    simp only [Joint.clamp, Joint.limit, Scalar.clamp_real, Scalar.numeral_real, Scalar.neg_real]
  refine ⟨rfl, hidle, hposed, n, _, htimes, hend, ?_, ?_, hmode, ?_, ?_⟩
  · refine (hjoints .base).trans ?_
    show Joint.base.clamp (-30) = -30
    rw [hclamp]
    norm_num
  · refine (hjoints .elbow).trans ?_
    exact Scalar.zero_real
  · refine heffort.trans (congrArg Value.real ?_)
    rw [Scalar.clamp_real]
    norm_num
  · obtain ⟨-, hlast, -⟩ :=
      hturns [] 0 400 [.openGripper, .moveJoint 0 (-30), .closeGripper (some 2)] .base rfl rfl
    refine hlast.trans (congrArg some ?_)
    rw [hclamp]
    norm_num

end Simulation

end ArmRover
