import ArmRover.Arm.Feedback
import ArmRover.Proofs.Action
import ArmRover.Proofs.Value.Amount

/-!
# One stretch of time for the arm

A stretch of time counts for the arm while it is active, and only if it has a length. Then the
joints are measured, and after that the fingers move, if the time of their stroke can be used. The
arm can be handled from outside between two stretches, and brought home.

* `Gripper.reached` — the opening after a part of a stroke, `Gripper.reached_reached` — one part
  after the other.
* `Feedback.Travelled` — what a stretch does to the gripper, `Feedback.exists_advance` — it does so,
  `Feedback.advance_of_idle` — a stretch that does not count.
* `Feedback.Event` — what happens to an arm, `Feedback.after` — many events,
  `Feedback.calls` — the stretches of time among them.
-/

namespace ArmRover

open ArmRover.Action

/-! ### The fingers -/

namespace Gripper

/-- The opening after a part of the whole stroke, up to the end of it. -/
noncomputable def reached (mode : Mode) (opening part : ℝ) : ℝ :=
  match mode with
  | .open => min 1 (opening + part)
  | .closed => max 0 (opening - part)

variable {opening part : ℝ}

theorem reached_nonneg (mode : Mode) (hopening : 0 ≤ opening) (hpart : 0 ≤ part) :
    0 ≤ reached mode opening part := by
  match mode with
  | .open => exact le_min zero_le_one (add_nonneg hopening hpart)
  | .closed => exact le_max_left _ _

theorem reached_le_one (mode : Mode) (hopening : opening ≤ 1) (hpart : 0 ≤ part) :
    reached mode opening part ≤ 1 := by
  match mode with
  | .open => exact min_le_left _ _
  | .closed => exact max_le zero_le_one (by linarith)

theorem reached_zero (mode : Mode) (hnonneg : 0 ≤ opening) (hle : opening ≤ 1) :
    reached mode opening 0 = opening := by
  match mode with
  | .open => exact (congrArg (min 1) (add_zero opening)).trans (min_eq_right hle)
  | .closed => exact (congrArg (max 0) (sub_zero opening)).trans (max_eq_right hnonneg)

/-- A stroke can be made in parts. One that is at its end stays there. -/
theorem reached_reached (mode : Mode) (opening : ℝ) {a b : ℝ} (hb : 0 ≤ b) :
    reached mode (reached mode opening a) b = reached mode opening (a + b) := by
  match mode with
  | .open =>
    show min 1 (min 1 (opening + a) + b) = min 1 (opening + (a + b))
    rw [← min_add_add_right, ← min_assoc, min_eq_left (le_add_of_nonneg_right hb), add_assoc]
  | .closed =>
    show max 0 (max 0 (opening - a) - b) = max 0 (opening - (a + b))
    rw [← max_sub_sub_right, ← max_assoc, zero_sub, max_eq_left (neg_nonpos.mpr hb), sub_sub]

/-- No stroke closes the fingers by more than a part of it. -/
theorem sub_reached_le (mode : Mode) (hopening : opening ≤ 1) (hpart : 0 ≤ part) :
    opening - reached mode opening part ≤ part := by
  match mode with
  | .open =>
    have hmin : opening ≤ min 1 (opening + part) := le_min hopening (by linarith)
    show opening - min 1 (opening + part) ≤ part
    linarith
  | .closed =>
    have hmax : opening - part ≤ max 0 (opening - part) := le_max_right _ _
    show opening - max 0 (opening - part) ≤ part
    linarith

end Gripper

namespace Feedback

variable {opening part stroke dt : ℝ}

/-- The fingers move towards the goal. At the goal they stay where they are, though the branch is
that for a goal below them. -/
theorem moved_eq_reached (mode : Gripper.Mode) (hnonneg : 0 ≤ opening) (hle : opening ≤ 1)
    (hpart : 0 ≤ part) : moved opening (goal mode) part = Gripper.reached mode opening part := by
  unfold moved
  rw [Scalar.lesser_real, Scalar.greater_real]
  match mode with
  | .open =>
    show (if opening < (Scalar.ofInt 1 : ℝ) then min (opening + part) (Scalar.ofInt 1)
      else max (opening - part) (Scalar.ofInt 1)) = min 1 (opening + part)
    rw [Scalar.ofInt_real, Int.cast_one]
    split
    case isTrue => exact min_comm _ _
    case isFalse h =>
      have hone : opening = 1 := le_antisymm hle (not_lt.mp h)
      rw [hone, min_eq_left (by linarith), max_eq_right (by linarith)]
  | .closed =>
    show (if opening < (Scalar.ofInt 0 : ℝ) then min (opening + part) (Scalar.ofInt 0)
      else max (opening - part) (Scalar.ofInt 0)) = max 0 (opening - part)
    rw [Scalar.ofInt_real, Int.cast_zero, if_neg (not_lt.mpr hnonneg)]
    exact max_comm _ _

/-- What a stretch of time does to a gripper. -/
structure Travelled (stroke dt : ℝ) (g g' : Gripper ℝ) : Prop where
  mode : g'.mode = g.mode
  maxEffort : g'.maxEffort = g.maxEffort
  opening : g'.opening = Gripper.reached g.mode g.opening (dt / stroke)
  effort : g'.effort.value =
    min g.maxEffort.amount (max 0 (g.opening - g'.opening) * stroke / dt)

namespace Travelled

variable {g g' : Gripper ℝ}

theorem opening_nonneg (h : Travelled stroke dt g g') (hstroke : 0 < stroke) (hdt : 0 < dt)
    (hnonneg : 0 ≤ g.opening) : 0 ≤ g'.opening :=
  h.opening ▸ Gripper.reached_nonneg _ hnonneg (div_nonneg hdt.le hstroke.le)

theorem opening_le_one (h : Travelled stroke dt g g') (hstroke : 0 < stroke) (hdt : 0 < dt)
    (hle : g.opening ≤ 1) : g'.opening ≤ 1 :=
  h.opening ▸ Gripper.reached_le_one _ hle (div_nonneg hdt.le hstroke.le)

/-- Fingers that move by a part of the stroke close by no more than that part, so that the effort is
at most that of closing at full speed. -/
theorem effort_le_one (h : Travelled stroke dt g g') (hstroke : 0 < stroke) (hdt : 0 < dt)
    (hle : g.opening ≤ 1) : g'.effort.value ≤ 1 := by
  have hpart : 0 ≤ dt / stroke := div_nonneg hdt.le hstroke.le
  have hclosing : max 0 (g.opening - g'.opening) ≤ dt / stroke := by
    rw [h.opening]
    exact max_le hpart (Gripper.sub_reached_le _ hle hpart)
  have hrate : max 0 (g.opening - g'.opening) * stroke / dt ≤ 1 := by
    rw [div_le_one hdt]
    exact (le_div_iff₀ hstroke).mp hclosing
  rw [h.effort]
  exact (min_le_right _ _).trans hrate

theorem effort_le_maxEffort (h : Travelled stroke dt g g') :
    g'.effort.value ≤ g.maxEffort.amount := by
  rw [h.effort]
  exact min_le_left _ _

end Travelled

theorem exists_travel {g : Gripper ℝ} (hmax : g.maxEffort.IsNumber) (hnonneg : 0 ≤ g.opening)
    (hle : g.opening ≤ 1) (hstroke : 0 < stroke) (hdt : 0 < dt) :
    ∃ g', travel stroke (dt / stroke) dt g = .ok () g' ∧ Travelled stroke dt g g' := by
  obtain ⟨n, hn, hamount⟩ := Value.exists_number? hmax
  have hmoved := moved_eq_reached g.mode hnonneg hle (div_nonneg hdt.le hstroke.le)
  unfold travel
  rw [run_get_bind, hn, hmoved]
  refine ⟨_, rfl, rfl, rfl, rfl, ?_⟩
  rw [Number.value_lesser, min_comm, hamount]
  refine congrArg _ ?_
  show Scalar.greater ((g.opening - Gripper.reached g.mode g.opening (dt / stroke)) / dt * stroke)
    (Scalar.ofInt 0 : ℝ) =
      max 0 (g.opening - Gripper.reached g.mode g.opening (dt / stroke)) * stroke / dt
  rw [Scalar.greater_real, Scalar.ofInt_real, Int.cast_zero, mul_div_assoc,
    max_mul_of_nonneg _ _ (div_nonneg hstroke.le hdt.le), zero_mul, max_comm, div_mul_eq_mul_div,
    mul_div_assoc]

/-! ### One stretch -/

section Guard

variable {α : Type} [Scalar α] {s : Station α} {dt : α}

/-- What is left to do after the joints are measured. -/
def moveFingers (strokeTime : Value α) (dt : α) : Action α (Station α) Unit := do
  let strokeTime ← Action.lift strokeTime.scalar?
  let step ← Action.lift (Scalar.divide? dt strokeTime)
  Action.on Station.gripper (fun s gripper => { s with gripper }) (travel strokeTime step dt)

theorem advance_of_idle (strokeTime : Value α) (h : s.active ≠ .arm ∨ dt ≤ 0) :
    advance strokeTime dt s = .ok () s := by
  unfold advance
  rw [run_get_bind, if_pos h]
  rfl

theorem advance_of_not_idle (strokeTime : Value α) (h : ¬ (s.active ≠ .arm ∨ dt ≤ 0)) :
    advance strokeTime dt s = moveFingers strokeTime dt { s with arm := measure s.arm dt } := by
  unfold advance
  rw [run_get_bind, if_neg h]
  rfl

theorem preserves_arm_moveFingers (strokeTime : Value α) (dt : α) (arm : Arm α) :
    Preserves (fun t : Station α => t.arm = arm) (moveFingers strokeTime dt) := by
  refine preserves_bind (preserves_lift _) fun strokeTime => ?_
  refine preserves_bind (preserves_lift _) fun step => ?_
  exact preserves_on (V := fun _ => True) (fun _ _ => trivial) (fun _ _ => trivial)
    fun _ _ h _ => h

end Guard

variable {strokeTime : Value ℝ} {s : Station ℝ}

/-- A stretch of time counts for the arm: the arm is active, and the stretch has a length. -/
def Counts (s : Station ℝ) (dt : ℝ) : Prop := s.active = .arm ∧ 0 < dt

/-- A stretch that does not count changes nothing. -/
theorem advance_of_not_counts (strokeTime : Value ℝ) (h : ¬ Counts s dt) :
    advance strokeTime dt s = .ok () s := by
  refine advance_of_idle strokeTime ?_
  rw [Scalar.zero_real]
  rcases Classical.not_and_iff_not_or_not.mp h with hactive | hdt
  · exact .inl hactive
  · exact .inr (not_lt.mp hdt)

theorem advance_of_counts (strokeTime : Value ℝ) (h : Counts s dt) :
    advance strokeTime dt s = moveFingers strokeTime dt { s with arm := measure s.arm dt } := by
  refine advance_of_not_idle strokeTime ?_
  rw [Scalar.zero_real]
  rintro (hactive | hdt)
  · exact hactive h.1
  · exact absurd h.2 (not_lt.mpr hdt)

/-- The joints are measured whatever becomes of the gripper. -/
theorem arm_of_advance (strokeTime : Value ℝ) (h : Counts s dt) :
    (final (advance strokeTime dt s)).arm = measure s.arm dt := by
  rw [advance_of_counts strokeTime h]
  exact preserves_arm_moveFingers strokeTime dt _ _ rfl

/-- With a time for the stroke and a threshold, a stretch that counts answers: the joints are
measured and the fingers move. -/
theorem exists_advance (hnumber : strokeTime.IsNumber) (hstroke : 0 < strokeTime.amount)
    (h : Counts s dt) (hmax : s.gripper.maxEffort.IsNumber) (hnonneg : 0 ≤ s.gripper.opening)
    (hle : s.gripper.opening ≤ 1) :
    ∃ gripper, advance strokeTime dt s =
        .ok () { s with arm := measure s.arm dt, gripper } ∧
      Travelled strokeTime.amount dt s.gripper gripper := by
  obtain ⟨gripper, htravel, htravelled⟩ := exists_travel hmax hnonneg hle hstroke h.2
  refine ⟨gripper, ?_, htravelled⟩
  rw [advance_of_counts strokeTime h]
  unfold moveFingers
  rw [Value.scalar?_of_isNumber hnumber, run_lift_bind,
    Scalar.divide?_real hstroke.ne', run_lift_bind]
  unfold Action.on
  rw [htravel]

/-! ### Many stretches -/

/-- What happens to an arm. -/
inductive Event (α : Type) where
  /-- A stretch of time passes. -/
  | update (dt : α)
  /-- Ask the gripper to open or close, with an effort threshold if one is given. -/
  | grip (mode : Gripper.Mode) (maxEffort : Option α)
  /-- Set the joint with a given number. -/
  | setJoint (number : Int) (angle : α)
  /-- Set all joints, if the angles are five. -/
  | setJoints (angles : List α)
  | select (robot : Robot)
  /-- Bring the arm home. -/
  | home

/-- The length of a stretch of time. -/
def Event.dt? {α : Type} : Event α → Option α
  | update dt => some dt
  | _ => none

section Runs

variable {α : Type} [Scalar α]

/-- Let an event happen. -/
def Event.act (rig : Rig α) : Event α → Action α (Station α) Unit
  | update dt => advance rig.grip.strokeTime dt
  | grip mode maxEffort => modify fun s => s.setGripper mode maxEffort
  | setJoint number angle => Station.setJoint? number angle
  | setJoints angles => do
    let q ← Action.lift (Joints.ofList? angles)
    modify fun s => s.setJoints q
  | select robot => modify fun s => { s with active := robot }
  | home => modify fun s => s.homeArm rig

/-- The station after an event, also when that fails. -/
def next (rig : Rig α) (s : Station α) (e : Event α) : Station α := final (e.act rig s)

/-- The station after events, one after the other. -/
def after (rig : Rig α) (s : Station α) (events : List (Event α)) : Station α :=
  events.foldl (next rig) s

/-- Whoever sets joints changes nothing else, also if there is no such joint. -/
theorem exists_next_setJoint (rig : Rig α) (s : Station α) (number : Int) (angle : α) :
    ∃ joints, next rig s (.setJoint number angle) = { s with arm := { s.arm with joints } } := by
  show ∃ joints, final (Station.setJoint? number angle s) = _
  unfold Station.setJoint?
  cases Joint.numbered? number with
  | none => exact ⟨s.arm.joints, rfl⟩
  | some j => exact ⟨_, rfl⟩

theorem exists_next_setJoints (rig : Rig α) (s : Station α) (angles : List α) :
    ∃ joints, next rig s (.setJoints angles) = { s with arm := { s.arm with joints } } := by
  show ∃ joints, final ((lift (Joints.ofList? angles) >>= fun q =>
    modify fun s => s.setJoints q : Action α (Station α) Unit) s) = _
  cases (Joints.ofList? angles : Except (Fault α) (Joints α)) with
  | error fault => exact ⟨s.arm.joints, rfl⟩
  | ok q => exact ⟨q.clamp, rfl⟩

/-- A stretch of time, with the station before and after it. -/
structure Call (α : Type) where
  start : Station α
  dt : α
  finish : Station α

/-- The call that an event is, if it is one. -/
def callIn (rig : Rig α) (s : Station α) (e : Event α) : Option (Call α) :=
  e.dt?.map fun dt => ⟨s, dt, next rig s e⟩

/-- The stretches of time among events. -/
def calls (rig : Rig α) (s : Station α) : List (Event α) → List (Call α)
  | [] => []
  | e :: rest => (callIn rig s e).toList ++ calls rig (next rig s e) rest

end Runs

end Feedback

end ArmRover
