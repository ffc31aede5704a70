import ArmRover.Proofs.Execution.Echo
import ArmRover.Proofs.Execution.Effect
import ArmRover.Proofs.Execution.Plan

/-!
# The path that a program shows

A command shows the path of the tip and takes it away again. Steps are tidy if, wherever they stop,
other than at a wait, the path that is shown then may be left behind. Those of a command are tidy if
none of them can fail while the path is shown, and what is left of tidy steps at a wait is tidy
again. So a program that ends, or that fails, leaves no path behind but one that may be left.

* `Outline` — what is seen of the arm, `Station.lasting_outline` — it outlasts any movement.
* `Step.shown` — the path that is shown after a step, `Step.preview_take` — whenever it is taken.
* `Step.Sure` — steps that never fail, `Settings.Motion.Followable` — settings with which a path
  that is shown is followed to its end.
* `Step.Tidy` — steps that leave no path behind, `Command.tidy_of_steps?` — those of a command.
* `Execution.Tidied`, `Execution.tidied_run` — the end of a stretch of a program.
-/

namespace ArmRover

variable {α : Type} [Scalar α]

open ArmRover.Action

/-! ### What is seen of the arm -/

/-- What is seen of an arm: its joints, and the path that is shown. -/
structure Outline (α : Type) where
  joints : Joints α
  preview : Option (List (Point α))

/-- What is seen of the arm of a station. -/
def Station.outline {α : Type} (s : Station α) : Outline α := ⟨s.arm.joints, s.arm.preview⟩

omit [Scalar α] in
/-- The robots move without a change of what is seen of the arm: it is what is asked of it. -/
theorem Station.lasting_outline (o : Outline α) : Station.Lasting fun s => s.outline = o where
  arm s arm hjoints hpreview h := by
    rw [← h]
    unfold outline
    rw [hjoints, hpreview]
  gripper _ _ _ _ h := h
  rover _ _ _ h := h

/-! ### What a step shows -/

namespace Step

omit [Scalar α] in
/-- The path that is shown after a step. -/
def shown (path : Option (List (Point α))) : Step α → Option (List (Point α))
  | .preview next => next
  | _ => path

omit [Scalar α] in
/-- A command for the rover shows nothing. -/
theorem shown_of_rover {step : Step α} (h : step.For .rover) (path : Option (List (Point α))) :
    step.shown path = path := by
  cases step with
  | preview next => cases h
  | _ => rfl

theorem shown_pausing (path : Option (List (Point α))) (pause : Value α) :
    (pausing pause).shown path = path := by
  unfold pausing Step.using
  split <;> rfl

omit [Scalar α] in
theorem preserves_preview_write {f : Station α → Station α} {path : Option (List (Point α))}
    (hf : ∀ s, (f s).arm.preview = s.arm.preview) :
    Preserves (fun s : Scene α => s.station.arm.preview = path) (write f) :=
  preserves_bind (preserves_modify fun s h => (hf s.station).trans h) fun _ => preserves_pure _

theorem preserves_preview_pause (p : Pause α) (again : List (Step α))
    (path : Option (List (Point α))) :
    Preserves (fun s : Scene α => s.station.arm.preview = path)
      (modifyGet (pause p again) : Action α (Scene α) (Outcome α)) := by
  refine preserves_modifyGet fun s h => ?_
  unfold pause
  split <;> exact h

/-- What is shown after a step does not depend on how it ends. One case for each kind of step. -/
theorem preview_take (cfg : Settings α) (step : Step α) (s : Scene α) :
    (final (step.take cfg s)).station.arm.preview = step.shown s.station.arm.preview := by
  cases step with
  | turn j start target since =>
    have hkeeps : Preserves (fun t : Scene α => t.station.arm.preview = s.station.arm.preview)
        ((turn j start target since).take cfg) := by
      unfold take
      refine preserves_bind preserves_get fun _ => ?_
      refine preserves_bind (preserves_lift _) fun _ => ?_
      refine preserves_bind (preserves_modify fun _ h => h) fun _ => ?_
      exact preserves_ite (preserves_pure _) (preserves_preview_pause _ _ _)
    exact hkeeps s rfl
  | pose q => exact preserves_preview_write (fun _ => rfl) s rfl
  | preview next => rfl
  | grip mode effort => exact preserves_preview_write (fun _ => rfl) s rfl
  | drive vx wz =>
    have hkeeps : Preserves (fun t : Scene α => t.station.arm.preview = s.station.arm.preview)
        ((drive vx wz).take cfg) := by
      have hpaced : Station.Paced cfg.driving
          fun t : Station α => t.arm.preview = s.station.arm.preview :=
        ⟨fun _ _ _ _ h => h, fun _ _ _ _ h => h⟩
      unfold take
      refine preserves_bind preserves_get fun _ => ?_
      refine preserves_bind (preserves_on (fun _ h => h)
        (Station.preserves_setVelocities_of hpaced _ _ fun _ h => h) fun _ _ _ h => h) fun _ => ?_
      exact preserves_pure _
    exact hkeeps s rfl
  | light color => exact preserves_preview_write (fun _ => rfl) s rfl
  | sleep seconds => exact preserves_preview_pause _ _ _ s rfl
  | reading distance => rfl
  | fail fault => rfl

/-! ### Steps that never fail -/

/-- A step that never fails. -/
def Sure (cfg : Settings α) (step : Step α) : Prop :=
  ∀ s, ∃ outcome t, step.take cfg s = .ok outcome t

theorem sure_pose (cfg : Settings α) (q : Joints α) : (Step.pose q).Sure cfg :=
  fun s => ⟨.done, s.onStation (·.setJoints q), rfl⟩

theorem sure_preview (cfg : Settings α) (path : Option (List (Point α))) :
    (Step.preview path).Sure cfg :=
  fun s => ⟨.done, s.onStation (·.setPreview path), rfl⟩

theorem sure_sleep (cfg : Settings α) (seconds : α) : (Step.sleep seconds).Sure cfg :=
  fun s => ⟨(pause (.sleep seconds) [] s).1, (pause (.sleep seconds) [] s).2, rfl⟩

end Step

/-- A path that is shown is followed to its end: there are times for its parts, and for how long it
stays. -/
structure Settings.Motion.Followable (motion : Settings.Motion α) : Prop where
  share (n : Nat) : ∃ seconds, Step.share? motion.poseTime n = .ok seconds
  stay : ∃ seconds, Step.seconds? motion.previewTime = .ok seconds

theorem Settings.Motion.followable {motion : Settings.Motion ℝ} (hpose : motion.poseTime.IsNumber)
    (hpreview : motion.previewTime.IsNumber) : motion.Followable where
  share n := ⟨_, Step.share?_eq hpose n⟩
  stay := ⟨_, Step.seconds?_eq hpreview⟩

/-! ### Tidy steps -/

/-- Steps that can stop only where the path that is shown may be left behind, or at a wait. -/
def Step.Tidy (cfg : Settings α) (Left : Option (List (Point α)) → Prop) :
    Option (List (Point α)) → List (Step α) → Prop
  | path, [] => Left path
  | path, step :: rest =>
    (Left (step.shown path) ∨ step.Sure cfg) ∧ Tidy cfg Left (step.shown path) rest

namespace Step

variable {cfg : Settings α} {Left : Option (List (Point α)) → Prop}
  {path : Option (List (Point α))} {steps : List (Step α)}

/-- Steps that show nothing new leave what was shown. -/
theorem tidy_of_shown (hleft : Left path) (h : ∀ step ∈ steps, step.shown path = path) :
    Tidy cfg Left path steps := by
  induction steps with
  | nil => exact hleft
  | cons step rest ih =>
    obtain ⟨hstep, hrest⟩ := List.forall_mem_cons.mp h
    unfold Tidy
    rw [hstep]
    exact ⟨.inl hleft, ih hrest⟩

/-- What steps for the rover may leave is shown already. -/
theorem left_of_tidy_rover (h : Tidy cfg Left path steps) (hfor : ∀ step ∈ steps, step.For .rover) :
    Left path := by
  induction steps with
  | nil => exact h
  | cons step rest ih =>
    obtain ⟨hstep, hrest⟩ := List.forall_mem_cons.mp hfor
    have htidy := h.2
    rw [shown_of_rover hstep] at htidy
    exact ih htidy hrest

theorem tidy_append_of_sure {more : List (Step α)} (hsure : ∀ step ∈ steps, step.Sure cfg)
    (hshown : ∀ step ∈ steps, step.shown path = path) (hmore : Tidy cfg Left path more) :
    Tidy cfg Left path (steps ++ more) := by
  induction steps with
  | nil => exact hmore
  | cons step rest ih =>
    obtain ⟨hstep, hrest⟩ := List.forall_mem_cons.mp hsure
    obtain ⟨hpath, hpaths⟩ := List.forall_mem_cons.mp hshown
    refine ⟨.inr hstep, ?_⟩
    rw [hpath]
    exact ih hrest hpaths

/-- The way to a point is followed to its end, and then the path is taken away. -/
theorem tidy_of_toPose? (hmotion : cfg.motion.Followable) (hnone : Left none) {target : Point α}
    {current : Joints α} (h : toPose? cfg target current = .ok steps) :
    Tidy cfg Left path steps := by
  obtain ⟨goal, -, h⟩ := bind_eq_ok.mp h
  obtain ⟨way, -, h⟩ := bind_eq_ok.mp h
  obtain ⟨tips, -, h⟩ := bind_eq_ok.mp h
  obtain rfl := Except.ok.inj h
  obtain ⟨seconds, hshare⟩ := hmotion.share (way.length - 1)
  obtain ⟨stay, hstay⟩ := hmotion.stay
  have hpausing : pausing cfg.motion.previewTime = .sleep stay := by
    unfold pausing
    rw [hstay]
    rfl
  have hboth (q : Joints α) : ∀ step ∈ [pose q, sleep seconds],
      step.Sure cfg ∧ step.shown (some tips) = some tips :=
    List.forall_mem_cons.mpr ⟨⟨sure_pose cfg q, rfl⟩,
      List.forall_mem_singleton.mpr ⟨sure_sleep cfg seconds, rfl⟩⟩
  have hfollow : ∀ step ∈ follow way.tail seconds,
      step.Sure cfg ∧ step.shown (some tips) = some tips := by
    intro step hstep
    obtain ⟨q, -, hstep⟩ := List.mem_flatMap.mp hstep
    exact hboth q step hstep
  rw [hshare, hpausing]
  refine ⟨.inr (sure_preview cfg _), ?_⟩
  refine tidy_append_of_sure (fun step hstep => (hfollow step hstep).1)
    (fun step hstep => (hfollow step hstep).2) ?_
  exact ⟨.inr (sure_sleep cfg _), .inr (sure_preview cfg _), hnone⟩

end Step

/-- The steps of every command are tidy, from a path on that may be left. -/
theorem Command.tidy_of_steps? {cfg : Settings α} {Left : Option (List (Point α)) → Prop}
    (hmotion : cfg.motion.Followable) (hnone : Left none) {path : Option (List (Point α))}
    (hleft : Left path) {scene : Scene α} {c : Command α} {steps : List (Step α)}
    (h : c.steps? cfg scene = .ok steps) : Step.Tidy cfg Left path steps := by
  have hpair : ∀ {step : Step α} (pause : Value α), step.shown path = path →
      ∀ s ∈ [step, Step.pausing pause], s.shown path = path := fun pause hstep =>
    List.forall_mem_cons.mpr ⟨hstep, List.forall_mem_singleton.mpr (Step.shown_pausing path pause)⟩
  cases c with
  | moveJoint number angle =>
    simp only [Command.steps?] at h
    split at h
    · cases h
      exact Step.tidy_of_shown hleft (List.forall_mem_singleton.mpr rfl)
    · cases h
  | openGripper =>
    cases h
    exact Step.tidy_of_shown hleft (hpair _ rfl)
  | closeGripper effort =>
    cases h
    refine Step.tidy_of_shown hleft (List.forall_mem_append.mpr
      ⟨?_, List.forall_mem_singleton.mpr (Step.shown_pausing path _)⟩)
    unfold Step.toClose
    split
    · exact List.forall_mem_singleton.mpr rfl
    · exact List.forall_mem_singleton.mpr rfl
    · refine List.forall_mem_cons.mpr ⟨rfl, List.forall_mem_singleton.mpr ?_⟩
      unfold Step.using
      split <;> rfl
  | moveToPose target => exact Step.tidy_of_toPose? hmotion hnone h
  | move vx wz =>
    cases h
    exact Step.tidy_of_shown hleft (hpair _ rfl)
  | getDistance =>
    cases h
    refine Step.tidy_of_shown hleft (List.forall_mem_cons.mpr ⟨Step.shown_pausing path _, ?_⟩)
    split
    · exact List.forall_mem_nil _
    · exact List.forall_mem_singleton.mpr rfl
  | setLight color =>
    cases h
    exact Step.tidy_of_shown hleft (hpair _ rfl)
  | other robot kind => cases h

/-! ### Stretches -/

namespace Execution

/-- A stretch of a program leaves tidy steps at a wait, and otherwise a path that may be left. -/
def Tidied (cfg : Settings α) (Left : Option (List (Point α)) → Prop) :
    EStateM.Result (Fault α) (Scene α) (Progress α) → Prop
  | .ok (.waiting _ rest) t => Step.Tidy cfg Left t.station.arm.preview rest.steps
  | .ok (.done _) t | .error _ t => Left t.station.arm.preview

variable {cfg : Settings α} {Left : Option (List (Point α)) → Prop} {steps : List (Step α)}
  {readings : List (Value α)} {s t : Scene α}

/-- What is left of tidy steps is tidy. -/
theorem tidy_of_takeSteps (h : Step.Tidy cfg Left s.station.arm.preview steps)
    {answer : List (Value α) × Option (Nat × List (Step α))}
    (hrun : takeSteps cfg steps readings s = .ok answer t) :
    Step.Tidy cfg Left t.station.arm.preview (answer.2.elim [] Prod.snd) := by
  induction steps generalizing readings s with
  | nil =>
    cases hrun
    exact h
  | cons step rest ih =>
    unfold takeSteps at hrun
    obtain ⟨outcome, u, hstep, hrun⟩ := exists_of_bind_eq_ok hrun
    have hshown := Step.preview_take cfg step s
    rw [hstep] at hshown
    have hrest : Step.Tidy cfg Left u.station.arm.preview rest := hshown ▸ h.2
    cases outcome with
    | done => exact ih hrest hrun
    | reading distance => exact ih hrest hrun
    | waits ticket again =>
      cases hrun
      -- a turn comes again, and shows nothing new
      obtain ⟨_, -, -, ⟨j, start, target, since, rfl, -, rfl⟩ | ⟨_, _, -, -, rfl⟩⟩ :=
        Step.exists_of_take_waits hstep
      · refine ⟨?_, hrest⟩
        rw [show t.station.arm.preview = s.station.arm.preview from hshown]
        exact h.1
      · exact hrest

theorem left_of_takeSteps (h : Step.Tidy cfg Left s.station.arm.preview steps) {fault : Fault α}
    (hrun : takeSteps cfg steps readings s = .error fault t) : Left t.station.arm.preview := by
  induction steps generalizing readings s with
  | nil => cases hrun
  | cons step rest ih =>
    have hshown := Step.preview_take cfg step s
    unfold takeSteps at hrun
    cases hstep : step.take cfg s with
    | error fault' u =>
      rw [run_bind_error hstep] at hrun
      cases hrun
      rw [hstep] at hshown
      refine hshown ▸ h.1.resolve_right fun hsure => ?_
      obtain ⟨outcome, u, hok⟩ := hsure s
      cases hok.symm.trans hstep
    | ok outcome u =>
      rw [run_bind hstep] at hrun
      rw [hstep] at hshown
      have hrest : Step.Tidy cfg Left u.station.arm.preview rest := hshown ▸ h.2
      cases outcome with
      | done => exact ih hrest hrun
      | reading distance => exact ih hrest hrun
      | waits ticket again => cases hrun

/-- Programs are tidy, if their first steps are. -/
theorem tidied_run (hmotion : cfg.motion.Followable) (hnone : Left none)
    (commands : List (Command α)) (h : Step.Tidy cfg Left s.station.arm.preview steps) :
    Tidied cfg Left (run cfg commands steps readings s) := by
  induction commands generalizing steps readings s with
  | nil =>
    cases hsteps : takeSteps cfg steps readings s with
    | error fault u =>
      rw [run_of_error hsteps]
      exact left_of_takeSteps h hsteps
    | ok answer u =>
      have hleft := tidy_of_takeSteps h hsteps
      obtain ⟨handed, _ | ⟨ticket, left⟩⟩ := answer
      · rw [run_of_done hsteps, run_finished]
        exact hleft
      · rw [run_of_wait hsteps]
        exact hleft
  | cons command rest ih =>
    cases hsteps : takeSteps cfg steps readings s with
    | error fault u =>
      rw [run_of_error hsteps]
      exact left_of_takeSteps h hsteps
    | ok answer u =>
      have hleft := tidy_of_takeSteps h hsteps
      obtain ⟨handed, _ | ⟨ticket, left⟩⟩ := answer
      · rw [run_of_done hsteps]
        cases hplan : command.steps? cfg u with
        | error fault =>
          rw [run_no_steps hplan]
          exact hleft
        | ok plan =>
          rw [run_command hplan]
          exact ih (command.tidy_of_steps? hmotion hnone hleft hplan)
      · rw [run_of_wait hsteps]
        exact hleft

end Execution

end ArmRover
