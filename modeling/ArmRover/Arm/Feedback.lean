import ArmRover.Station.Basic

/-!
# Feedback of the arm

What the arm reports while time passes: the velocities of its joints, the opening of the gripper,
and the effort of closing it.

* `Feedback.advance` — one stretch of time.
-/

namespace ArmRover.Feedback

variable [Scalar α]

/-- The change from one configuration to another, for each unit of time. -/
def rate (before after : Joints α) (dt : α) : Joints α :=
  Joints.zipWith (fun a b => (b - a) / dt) before after

/-- The opening that the gripper is asked for. -/
def goal : Gripper.Mode → α
  | .open => 1
  | .closed => 0

/-- The opening after a step towards the goal. -/
def moved (opening goal step : α) : α :=
  if opening < goal then Scalar.lesser (opening + step) goal
  else Scalar.greater (opening - step) goal

/-- The joint velocities since the last measurement. The first measurement after a reset gives
zero. -/
def measure (arm : Arm α) (dt : α) : Arm α :=
  { arm with
    velocities := rate (arm.measured.getD arm.joints) arm.joints dt
    measured := some arm.joints }

/-- Move the fingers, which take `strokeTime` for the way from open to closed. The effort is the
closing velocity as a share of the full one, up to the threshold. -/
def travel (strokeTime step dt : α) : Action α (Gripper α) Unit := do
  let before ← get
  let opening := moved before.opening (goal before.mode) step
  modify fun g => { g with opening }
  let closing := (before.opening - opening) / dt
  let threshold ← Action.lift before.maxEffort.number?
  let effort := Number.real (Scalar.greater (closing * strokeTime) 0)
  modify fun g => { g with effort := effort.lesser threshold }

/-- Let a stretch of time pass for the arm, if it is active and the stretch has a length. -/
def advance (strokeTime : Value α) (dt : α) : Action α (Station α) Unit := do
  let s ← get
  if s.active ≠ .arm ∨ dt ≤ 0 then return
  modify fun s => { s with arm := measure s.arm dt }
  let strokeTime ← Action.lift strokeTime.scalar?
  let step ← Action.lift (Scalar.divide? dt strokeTime)
  Action.on Station.gripper (fun s gripper => { s with gripper }) (travel strokeTime step dt)

end ArmRover.Feedback
