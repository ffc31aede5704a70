import ArmRover.Proofs.Execution.Stretch
import ArmRover.Proofs.Station.Faults

/-!
# The faults of a program

A program fails with the faults of its commands and steps, of which none belongs to a run. A step
that is planned with a fault holds one that does not either.

* `Arm.fails_inverse?`, `Trajectory.fails_rows?`, `Step.fails_toPose?` — the way to a point.
* `Step.Own` — steps that hold no fault of a run, `Command.own_of_steps?` — the steps of a command,
  `Step.throws_take` — taking one, `Execution.own_of_run` — the steps that a stretch leaves.
* `Execution.throws_run`, `Execution.throws_begin` — a stretch of a program.
-/

namespace ArmRover

variable {α β : Type} [Scalar α]

open ArmRover.Action

/-! ### The way to a point -/

omit [Scalar α] in
@[simp] theorem Joints.fails_ofList? (angles : List α) :
    Fails Fault.Own (Joints.ofList? angles) := by
  unfold ofList?
  split <;> simp

namespace Arm

@[simp] theorem fails_aimed? (aim : Point α) (previous : Joints α) (tolerance : Value α) :
    Fails Fault.Own (aimed? aim previous tolerance) := by
  have hplanar : ∀ spot : Spot α, Fails Fault.Own (planarFor? spot tolerance) := by
    intro spot
    unfold planarFor?
    split
    · exact fails_pure _
    · exact fails_bind (tolerance.fails_ask? _) fun _ => fails_ite (fails_pure _) (fails_pure _)
  exact fails_bind (hplanar _) fun _ => fails_pure _

theorem Search.fails_run? (target : Point α) (tolerance : Value α) (first : Bool) (passes : Nat)
    (s : Search α) : Fails Fault.Own (run? target tolerance first passes s) := by
  induction passes generalizing first s with
  | zero => exact fails_ok _
  | succ passes ih =>
    refine fails_bind (tolerance.fails_askComputed? _) fun _ => fails_ite (fails_pure _) ?_
    exact fails_bind (fails_aimed? _ _ tolerance) fun _ => ih false _

theorem fails_judgedOnly? (coordinate : α) (start : Joints α) (passes : Int) (tolerance : Value α) :
    Fails Fault.Own (judgedOnly? coordinate start passes tolerance) := by
  refine fails_ite (fails_bind (tolerance.fails_askComputed? _) fun _ => ?_) (fails_pure _)
  exact fails_unless trivial (fails_pure _)

theorem fails_inverse? (target : List α) (given : Option (List α)) (passes tolerance : Value α) :
    Fails Fault.Own (inverse? target given passes tolerance) := by
  have hgiven : Fails Fault.Own (given.mapM Joints.ofList?) := by
    cases given with
    | none => exact fails_pure none
    | some angles => exact fails_map (Joints.fails_ofList? angles)
  refine fails_bind hgiven fun given => fails_bind passes.fails_number? fun n => ?_
  refine fails_bind n.fails_whole? fun passes => ?_
  split
  · exact fails_bind (Search.fails_run? _ tolerance true _ _) fun _ => fails_pure _
  · exact fails_judgedOnly? _ _ passes tolerance
  · exact fails_error.mpr trivial

end Arm

namespace Trajectory

theorem fails_rows? (start target : List α) (segments : Value α) :
    Fails Fault.Own (rows? start target segments) := by
  refine fails_bind ?_ fun n => fails_bind (Joints.fails_ofList? start) fun start => ?_
  · exact fails_bind segments.fails_number? fun n => fails_unless trivial (fails_pure n)
  · refine fails_bind (Joints.fails_ofList? target) fun target => ?_
    exact fails_bind n.fails_whole? fun _ => fails_pure _

theorem fails_tips? (path : List (Joints α)) : Fails Fault.Own (tips? path) :=
  fails_mapM (fun q => by simp [Joints.tip?]) path

end Trajectory

/-! ### The steps of a command -/

namespace Step

omit [Scalar α] in
/-- A step that holds no fault of a run. -/
def Own : Step α → Prop
  | fail fault => fault.Own
  | _ => True

omit [Scalar α] in
theorem own_using {value : Except (Fault α) β} (h : Fails Fault.Own value) {step : β → Step α}
    (hstep : ∀ b, (step b).Own) : (Step.using value step).Own := by
  cases value with
  | ok b => exact hstep b
  | error fault => exact fails_error.mp h

theorem own_pausing (pause : Value α) : (pausing pause).Own := by
  refine own_using (fails_bind pause.fails_number? fun n => ?_) fun _ => trivial
  exact fails_ite (fails_pure _) n.fails_scalar?

omit [Scalar α] in
theorem own_follow (path : List (Joints α)) (seconds : α) :
    ∀ step ∈ follow path seconds, step.Own := by
  intro step hstep
  obtain ⟨q, -, hstep⟩ := List.mem_flatMap.mp hstep
  obtain rfl | hstep := List.mem_cons.mp hstep
  · trivial
  · obtain rfl := List.mem_singleton.mp hstep
    trivial

theorem fails_share? (duration : Value α) (n : Nat) : Fails Fault.Own (share? duration n) :=
  fails_bind duration.fails_number? fun k => k.fails_quotient? n

theorem fails_toPose? (cfg : Settings α) (target : Point α) (current : Joints α) :
    Fails Fault.Own (toPose? cfg target current) :=
  fails_bind (Arm.fails_inverse? _ _ _ _) fun _ =>
    fails_bind (Trajectory.fails_rows? _ _ _) fun path =>
      fails_bind (Trajectory.fails_tips? path) fun _ => fails_pure _

theorem own_of_toPose? {cfg : Settings α} {target : Point α} {current : Joints α}
    {steps : List (Step α)} (h : toPose? cfg target current = .ok steps) :
    ∀ step ∈ steps, step.Own := by
  obtain ⟨goal, -, h⟩ := bind_eq_ok.mp h
  obtain ⟨path, -, h⟩ := bind_eq_ok.mp h
  obtain ⟨tips, -, h⟩ := bind_eq_ok.mp h
  obtain rfl := Except.ok.inj h
  refine List.forall_mem_cons.mpr ⟨trivial, List.forall_mem_append.mpr ⟨?_, ?_⟩⟩
  · split
    · exact own_follow path.tail _
    · next hshare => exact List.forall_mem_singleton.mpr (fails_share? _ _ _ hshare)
  · exact List.forall_mem_cons.mpr ⟨own_pausing _, List.forall_mem_singleton.mpr trivial⟩

theorem own_toClose (cfg : Settings α) (effort : Option α) :
    ∀ step ∈ toClose cfg effort, step.Own := by
  unfold toClose
  split
  · exact List.forall_mem_singleton.mpr trivial
  · exact List.forall_mem_singleton.mpr trivial
  · refine List.forall_mem_cons.mpr ⟨trivial, List.forall_mem_singleton.mpr ?_⟩
    exact own_using (Value.fails_numeric? _) fun _ => trivial

end Step

namespace Command

theorem fails_steps? (cfg : Settings α) (scene : Scene α) (command : Command α) :
    Fails Fault.Own (command.steps? cfg scene) := by
  cases command with
  | moveJoint number angle =>
    simp only [steps?]
    split <;> simp
  | moveToPose target => exact Step.fails_toPose? cfg target _
  | other robot kind => exact fails_error.mpr trivial
  | _ => exact fails_ok _

/-- The steps of a command hold no fault of a run. -/
theorem own_of_steps? {cfg : Settings α} {scene : Scene α} {command : Command α}
    {steps : List (Step α)} (h : command.steps? cfg scene = .ok steps) :
    ∀ step ∈ steps, step.Own := by
  have hpause : ∀ pause : Value α, ∀ step ∈ [Step.pausing pause], step.Own := fun pause =>
    List.forall_mem_singleton.mpr (Step.own_pausing pause)
  cases command with
  | moveJoint number angle =>
    simp only [steps?] at h
    split at h <;> cases h
    exact List.forall_mem_singleton.mpr trivial
  | openGripper =>
    cases h
    exact List.forall_mem_cons.mpr ⟨trivial, hpause _⟩
  | closeGripper effort =>
    cases h
    exact List.forall_mem_append.mpr ⟨Step.own_toClose cfg effort, hpause _⟩
  | moveToPose target => exact Step.own_of_toPose? h
  | move vx wz =>
    cases h
    exact List.forall_mem_cons.mpr ⟨trivial, hpause _⟩
  | getDistance =>
    cases h
    refine List.forall_mem_cons.mpr ⟨Step.own_pausing _, ?_⟩
    split
    · exact List.forall_mem_nil _
    · exact List.forall_mem_singleton.mpr trivial
  | setLight color =>
    cases h
    exact List.forall_mem_cons.mpr ⟨trivial, hpause _⟩
  | other robot kind => cases h

end Command

/-! ### Taking steps -/

theorem Step.throws_take (cfg : Settings α) {step : Step α} (h : step.Own) :
    Throws Fault.Own (step.take cfg) := by
  cases step with
  | turn j start target since =>
    have hprogress : ∀ elapsed : α,
        Fails Fault.Own (progress? elapsed cfg.motion.jointTime) := fun elapsed =>
      fails_bind (Value.fails_number? _) fun n =>
        fails_ite (fails_bind n.fails_scalar? fun _ => fails_pure _) (fails_pure _)
    refine throws_bind throws_get fun s => throws_bind (throws_lift (hprogress _)) fun _ => ?_
    refine throws_bind (throws_modify _) fun _ => ?_
    exact throws_ite (throws_pure _) (throws_modifyGet _)
  | drive vx wz =>
    refine throws_bind throws_get fun s => ?_
    exact throws_bind (throws_on (Station.throws_setVelocities _ _ _ _)) fun _ => throws_pure _
  | sleep seconds => exact throws_modifyGet _
  | reading distance => exact throws_pure _
  | fail fault => exact throws_throw h
  | _ => exact throws_bind (throws_modify _) fun _ => throws_pure _

/-- What a step that waits has before it afterwards is nothing, or the step again. -/
theorem Step.own_of_take {cfg : Settings α} {step : Step α} {ticket : Nat}
    {again : List (Step α)} {s t : Scene α} (h : step.take cfg s = .ok (.waits ticket again) t) :
    ∀ step ∈ again, step.Own := by
  obtain ⟨_, -, -, ⟨_, _, _, _, rfl, -, rfl⟩ | ⟨_, _, -, -, rfl⟩⟩ := exists_of_take_waits h
  · exact List.forall_mem_singleton.mpr trivial
  · exact List.forall_mem_nil _

namespace Execution

variable {cfg : Settings α} {steps : List (Step α)} {readings : List (Value α)} {s t : Scene α}

theorem throws_takeSteps (h : ∀ step ∈ steps, step.Own) (readings : List (Value α)) :
    Throws Fault.Own (takeSteps cfg steps readings) := by
  induction steps generalizing readings with
  | nil => exact throws_pure _
  | cons step rest ih =>
    obtain ⟨hstep, hrest⟩ := List.forall_mem_cons.mp h
    refine throws_bind (step.throws_take cfg hstep) fun outcome => ?_
    cases outcome with
    | done => exact ih hrest readings
    | reading distance => exact ih hrest _
    | waits ticket again => exact throws_pure _

theorem own_of_takeSteps (hsteps : ∀ step ∈ steps, step.Own) {handed : List (Value α)}
    {ticket : Nat} {left : List (Step α)}
    (h : takeSteps cfg steps readings s = .ok (handed, some (ticket, left)) t) :
    ∀ step ∈ left, step.Own := by
  induction steps generalizing readings s with
  | nil => cases h
  | cons step rest ih =>
    obtain ⟨-, hrest⟩ := List.forall_mem_cons.mp hsteps
    unfold takeSteps at h
    obtain ⟨outcome, u, htake, h⟩ := exists_of_bind_eq_ok h
    cases outcome with
    | done => exact ih hrest h
    | reading distance => exact ih hrest h
    | waits ticket' again =>
      cases h
      exact List.forall_mem_append.mpr ⟨Step.own_of_take htake, hrest⟩

/-- A stretch of a program fails with a fault of its own. -/
theorem throws_run (cfg : Settings α) (commands : List (Command α))
    (h : ∀ step ∈ steps, step.Own) (readings : List (Value α)) :
    Throws Fault.Own (run cfg commands steps readings) := by
  induction commands generalizing steps readings with
  | nil =>
    unfold run
    refine throws_bind (throws_takeSteps h readings) fun taken => ?_
    obtain ⟨handed, _ | wait⟩ := taken <;> exact throws_pure _
  | cons command commands ih =>
    unfold run
    refine throws_bind (throws_takeSteps h readings) fun taken => ?_
    obtain ⟨handed, _ | wait⟩ := taken
    · refine throws_bind throws_get fun s => ?_
      refine throws_lift_bind (command.fails_steps? cfg s) fun plan hplan => ?_
      exact ih (Command.own_of_steps? hplan) handed
    · exact throws_pure _

/-- The steps that a stretch of a program leaves hold no fault of a run. -/
theorem own_of_run {commands : List (Command α)} (hsteps : ∀ step ∈ steps, step.Own)
    {ticket : Nat} {rest : Execution α}
    (h : run cfg commands steps readings s = .ok (.waiting ticket rest) t) :
    ∀ step ∈ rest.steps, step.Own := by
  induction commands generalizing steps readings s with
  | nil =>
    obtain ⟨handed, _, left, hrun, hprogress⟩ | ⟨_, -, hprogress⟩ := exists_of_run_nil h
    · cases hprogress
      exact own_of_takeSteps hsteps hrun
    · cases hprogress
  | cons command commands ih =>
    obtain ⟨handed, _, left, hrun, hprogress⟩ | ⟨_, _, plan, -, hplan, hrun⟩ :=
      exists_of_run_cons h
    · cases hprogress
      exact own_of_takeSteps hsteps hrun
    · exact ih (Command.own_of_steps? hplan) hrun

end Execution

end ArmRover
