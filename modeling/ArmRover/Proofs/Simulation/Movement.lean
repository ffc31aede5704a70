import ArmRover.Proofs.Execution.Movement
import ArmRover.Proofs.Simulation.Finish
import ArmRover.Proofs.Simulation.Preview
import ArmRover.Proofs.Simulation.Recorded

/-!
# Movements of the tip

However the frames fall, a program that brings the tip to a point goes the way that it shows: the
arm takes the configurations of the way, and no others, from where it was to where the search for
the point ends, and then the path is taken away.

* `Simulation.outlines` — what is seen of the arm in frames of any lengths.
* `Simulation.Ahead` — the commands that a program for the arm still has before it.
* `Movement.watch` — the course of a movement, `recorder_movement` — stretches keep it.
* `Simulation.movement_follows_preview` — movements go the way that is shown.
-/

namespace ArmRover

open ArmRover.Action

/-- What is seen of the arm in frames of some lengths, one after the other. -/
def Simulation.outlines {α : Type} [Scalar α] (cfg : Settings α) (times : List α)
    (s : Simulation α) : List (Sight (Outline α)) :=
  s.recorded
    (fun rest => Execution.sights Station.outline cfg rest.commands rest.steps rest.readings) cfg
    times

/-- Which commands a program for the arm, or one that waits, still has to begin. -/
def Simulation.Ahead {α : Type} (s : Simulation α) (commands : List (Command α)) : Prop :=
  match s.job with
  | some (.fresh all) =>
    s.scene.station.active = .arm ∧ (all.filter fun c => c.robot == .arm) = commands
  | some (.waiting _ rest) => rest.commands = commands
  | _ => False

variable {cfg : Settings ℝ} {movement : Movement}

/-! ### What stretches keep -/

/-- The course of a movement. -/
noncomputable def Movement.watch (cfg : Settings ℝ) (movement : Movement) :
    Watch (Outline ℝ) (Sight (Outline ℝ)) where
  view := Station.outline
  record rest := Execution.sights Station.outline cfg rest.commands rest.steps rest.readings
  Keeps log rest o _ := movement.Course cfg (Sight.during movement.after.length log) rest o
  Ends log _ := movement.Whole cfg (Sight.during movement.after.length log)
  Fails log := Sight.during movement.after.length log = [] ∨
    movement.Whole cfg (Sight.during movement.after.length log)

/-- Movements go on, or they are done, also if the program fails. -/
theorem recorder_movement (hpose : cfg.motion.poseTime.IsNumber)
    (hpreview : cfg.motion.previewTime.IsNumber)
    (hserves : cfg.Serves (.moveToPose movement.target)) : Recorder cfg (movement.watch cfg) := by
  have hreached : ∀ {log : List (Sight (Outline ℝ))} {rest : Execution ℝ} {s : Scene ℝ},
      movement.Course cfg (Sight.during movement.after.length log) rest s.station.outline →
      movement.Reached cfg
        (Sight.during movement.after.length (log ++ (movement.watch cfg).record rest s))
        (Execution.resume cfg rest s) := by
    intro log rest s h
    rw [Sight.during_append]
    exact Movement.reached_run hpose hpreview hserves h
  exact
    { unmoved := Simulation.outline_pass cfg
      homed := fun _ _ => rfl
      later := fun _ h => h
      waits := fun hrun h => by
        have hwaits := hreached h
        rw [hrun] at hwaits
        exact hwaits
      ends := fun hrun h => by
        have hends := hreached h
        rw [hrun] at hends
        exact hends
      fails := fun hrun h => by
        have hfails := hreached h
        rw [hrun] at hfails
        exact hfails }

/-- A program does not begin along a way: its first step is a pause, and a way does not end with
one. -/
theorem Step.along_ne_append_pausing (cfg : Settings ℝ) (start : Joints ℝ) (way : List (Joints ℝ))
    (taken : List (Step ℝ)) (pause : Value ℝ) :
    along cfg start way ≠ taken ++ [pausing pause] := by
  intro h
  have hlast := congrArg List.getLast? h
  rw [along, List.getLast?_append_cons, List.getLast?_concat] at hlast
  have hpausing : pausing pause = .preview none := (Option.some.inj hlast).symm
  unfold pausing Step.using at hpausing
  split at hpausing
  · cases hpausing
  · cases hpausing

namespace Simulation

variable {s : Simulation ℝ}

theorem ahead_of_fresh {all : List (Command ℝ)} (hjob : s.job = some (.fresh all))
    (hactive : s.scene.station.active = .arm) :
    s.Ahead (Execution.initial cfg .arm all).commands := by
  unfold Ahead
  rw [hjob]
  exact ⟨hactive, rfl⟩

theorem ahead_of_waiting {ticket : Nat} {rest : Execution ℝ}
    (hjob : s.job = some (.waiting ticket rest)) : s.Ahead rest.commands := by
  unfold Ahead
  rw [hjob]

theorem not_ahead_of_finished {readings : List (Value ℝ)}
    (hjob : s.job = some (.finished readings)) (commands : List (Command ℝ)) :
    ¬ s.Ahead commands := by
  unfold Ahead
  rw [hjob]
  exact id

theorem recorded_of_ahead {before : List (Command ℝ)}
    (hahead : s.Ahead (before ++ .moveToPose movement.target :: movement.after))
    (hwithin : s.scene.station.arm.joints.within = true) :
    s.Recorded cfg (movement.watch cfg) [] := by
  unfold Ahead at hahead
  unfold Recorded
  split at hahead
  · next all hjob =>
    rw [hjob]
    exact ⟨hahead.1, .ahead before hahead.2 Joints.within_zero⟩
  · next ticket rest hjob =>
    rw [hjob]
    exact .ahead before hahead hwithin
  · exact hahead.elim

/-- What is seen of a movement tells how far it has come. -/
theorem seen_of_recorded {log : List (Sight (Outline ℝ))}
    (h : s.Recorded cfg (movement.watch cfg) log) :
    let seen := Sight.during movement.after.length log
    seen = [] ∧
        ((∃ more, s.Ahead (more ++ .moveToPose movement.target :: movement.after)) ∨
          ∃ fault, s.job = some (.failed fault)) ∨
      movement.Begun cfg seen
        (s.Ahead movement.after ∧ seen.getLast? = some s.scene.station.outline) := by
  intro seen
  unfold Recorded at h
  split at h
  · next all hjob =>
    obtain ⟨hactive, hcourse⟩ := h
    obtain ⟨hnone, more, hcommands⟩ | hbegun := Movement.Course.told hcourse
    · exact .inl ⟨hnone, .inl ⟨more, hcommands ▸ ahead_of_fresh hjob hactive⟩⟩
    · refine .inr (hbegun.imp ?_)
      rintro ⟨-, -, start, way, taken, hplan⟩
      exact absurd hplan (Step.along_ne_append_pausing _ _ _ _ _)
  · next ticket rest hjob =>
    obtain ⟨hnone, more, hcommands⟩ | hbegun := Movement.Course.told h
    · exact .inl ⟨hnone, .inl ⟨more, hcommands ▸ ahead_of_waiting hjob⟩⟩
    · refine .inr (hbegun.imp ?_)
      rintro ⟨hcommands, hlast, -⟩
      exact ⟨hcommands ▸ ahead_of_waiting hjob, hlast⟩
  · exact .inr (Movement.Whole.begun h)
  · next fault hjob =>
    rcases h with hnone | hwhole
    · exact .inl ⟨hnone, .inr ⟨fault, hjob⟩⟩
    · exact .inr (Movement.Whole.begun hwhole)
  · exact h.elim

/-- A program for the arm, or one that waits, still has a movement of the tip to a point before it,
and the joints are within their limits. Whatever frames come, and whatever fails before and after,
the movement never fails: as long as nothing is seen of it, it is still ahead, or the program has
failed before it. Otherwise there is a way from where the joints were when it began to where the
search for the point ended. It has as many configurations as there are segments, all of them within
the limits and with the gripper rotated as it was. What is seen are the joints on the way, one after
the other, with the path of the tip along just these, and the arm stays as it was seen last until
the way is gone to its end; then no path is shown any more.

A program that has just been started goes the way to its end, if time can pass and its settings and
the rest of its commands are of use. -/
theorem movement_follows_preview {cfg : Settings ℝ} (hpose : cfg.motion.poseTime.IsNumber)
    (hpreview : cfg.motion.previewTime.IsNumber) {target : Point ℝ}
    (hserves : cfg.Serves (.moveToPose target)) {s : Simulation ℝ}
    {before after : List (Command ℝ)} (hahead : s.Ahead (before ++ .moveToPose target :: after))
    (hwithin : s.scene.station.arm.joints.within = true) :
    (∀ times : List ℝ, (∀ dt ∈ times, 0 ≤ dt) →
      let last := s.after cfg (times.map .frame)
      let seen := Sight.during after.length (s.outlines cfg times)
      seen = [] ∧
          ((∃ more, last.Ahead (more ++ .moveToPose target :: after)) ∨
            ∃ fault, last.job = some (.failed fault)) ∨
        ∃ (begin : Outline ℝ) (goal : Joints ℝ) (way : List (Joints ℝ)),
          begin.joints.within = true ∧ Arm.Way cfg target begin.joints goal way ∧
          (∀ q ∈ way, q.within = true ∧ q.gripper = begin.joints.gripper) ∧
          seen <+: begin.along goal way ∧
          (seen ≠ begin.along goal way →
            last.Ahead after ∧ seen.getLast? = some last.scene.station.outline)) ∧
    ∀ (commands : List (Command ℝ)) (dt : ℝ), s.job = some (.fresh commands) → 0 < dt →
      s.scene.clock.waits = [] → s.Smooth cfg dt → cfg.Timed →
      (∀ c ∈ commands, c.robot = .arm → c.Proper ∧ cfg.Serves c) →
      ∃ (n : Nat) (begin : Outline ℝ) (goal : Joints ℝ) (way : List (Joints ℝ)),
        begin.joints.within = true ∧ Arm.Way cfg target begin.joints goal way ∧
        Sight.during after.length (s.outlines cfg (List.replicate n dt)) =
          begin.along goal way := by
  let movement : Movement := ⟨target, after⟩
  have hstart : s.Recorded cfg (movement.watch cfg) [] := recorded_of_ahead hahead hwithin
  have hrecorder : Recorder cfg (movement.watch cfg) := recorder_movement hpose hpreview hserves
  have htold (times : List ℝ) (htimes : ∀ dt ∈ times, 0 ≤ dt) :=
    seen_of_recorded (hrecorder.recorded_after htimes hstart)
  refine ⟨fun times htimes => ?_, fun commands dt hjob hdt hwaits hsmooth htimed hproper => ?_⟩
  · intro last seen
    refine (htold times htimes).imp id ?_
    rintro ⟨begin, goal, way, hbegin, hway, hrest⟩
    exact ⟨begin, goal, way, hbegin, hway, fun q hq => ⟨hway.within hbegin q hq,
      hway.gripper hbegin q hq⟩, hrest⟩
  · have hactive : s.scene.station.active = .arm := by
      unfold Ahead at hahead
      rw [hjob] at hahead
      exact hahead.1
    obtain ⟨n, -, hend, -⟩ := exists_end_of_fresh hdt htimed hjob hwaits hsmooth (hactive ▸ hproper)
    rw [frames_eq_after] at hend
    have htimes : ∀ time ∈ List.replicate n dt, 0 ≤ time := fun time hmem =>
      (List.mem_replicate.mp hmem).2 ▸ hdt.le
    obtain ⟨-, ⟨more, h⟩ | ⟨fault, hfailed⟩⟩ | ⟨begin, goal, way, hbegin, hway, -, hrest⟩ :=
      htold _ htimes
    · exact absurd h (not_ahead_of_finished hend _)
    · rw [hend] at hfailed
      cases hfailed
    · refine ⟨n, begin, goal, way, hbegin, hway, ?_⟩
      by_contra hne
      exact not_ahead_of_finished hend _ (hrest hne).1

/-- With the built-in settings the tip is brought to a point in twenty segments. -/
theorem movement_follows_preview_standard :
    let cfg : Settings ℝ := .standard
    let target : Point ℝ := ⟨1 / 2, 1 / 2, 0⟩
    let s := ((new cfg []).ask cfg (.start [.moveToPose target])).2
    cfg.motion.poseTime.IsNumber ∧ cfg.motion.previewTime.IsNumber ∧
      cfg.Serves (.moveToPose target) ∧ s.Ahead ([] ++ [.moveToPose target]) ∧
      s.scene.station.arm.joints.within = true ∧
      ∃ (n : Nat) (begin : Outline ℝ) (goal : Joints ℝ) (way : List (Joints ℝ)),
        begin.joints.within = true ∧ Arm.Way cfg target begin.joints goal way ∧ way.length = 20 ∧
        Sight.during 0 (s.outlines cfg (List.replicate n (1 / 60))) = begin.along goal way := by
  intro cfg target s
  have hpose : cfg.motion.poseTime.IsNumber := Settings.timed_standard.poseTime.1
  have hpreview : cfg.motion.previewTime.IsNumber := Settings.timed_standard.previewTime.1
  have hserves : cfg.Serves (.moveToPose target) := Settings.serves_standard _
  have hahead : s.Ahead ([] ++ [.moveToPose target]) := ⟨rfl, rfl⟩
  have hwithin : s.scene.station.arm.joints.within = true := Joints.within_zero
  have hdt : (0 : ℝ) < 1 / 60 := by norm_num
  have hsmooth : s.Smooth cfg (1 / 60) :=
    smooth_of_steady Settings.steady_standard _ ⟨rfl, ⟨_, rfl⟩⟩
  obtain ⟨n, begin, goal, way, hbegin, hway, hseen⟩ :=
    (movement_follows_preview hpose hpreview hserves hahead hwithin).2 [.moveToPose target] (1 / 60)
      rfl hdt rfl hsmooth Settings.timed_standard
      (List.forall_mem_singleton.mpr fun _ => ⟨rfl, hserves⟩)
  refine ⟨hpose, hpreview, hserves, hahead, hwithin, n, begin, goal, way, hbegin, hway, ?_, hseen⟩
  have hsegments : (Except.ok (.whole 20) : Except (Fault ℝ) (Number ℝ)) =
      .ok (.whole way.length) := hway.segments
  injection hsegments with hsegments
  injection hsegments with hsegments
  exact (Int.ofNat.inj hsegments).symm

end Simulation

end ArmRover
