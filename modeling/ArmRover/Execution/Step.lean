import ArmRover.Command
import ArmRover.Station.Basic
import ArmRover.Clock.Basic
import ArmRover.Arm.Inverse
import ArmRover.Arm.Trajectory

/-!
# The steps of a command

A command is a list of steps, which are fixed when it begins: writes to the station, pauses, and
readings. Only the turning of a joint looks at the clock again, once in every frame.

* `Scene` — the station and the clock, which steps read and write.
* `Step` — the steps, `Command.steps?` — the steps of a command.
* `Step.take` — taking one step. A setting that turns out to be of no use is a step that fails.
-/

namespace ArmRover

/-- What commands act on. -/
structure Scene (α : Type) where
  station : Station α
  clock : Clock α

/-- Change the station of a scene. -/
def Scene.onStation (f : Station α → Station α) (s : Scene α) : Scene α :=
  { s with station := f s.station }

/-- One step of a command. -/
inductive Step (α : Type) where
  /-- Turn a joint from `start` to `target`, in the time for turning a joint, from the time `since`
  on. -/
  | turn (j : Joint) (start target since : α)
  | pose (q : Joints α)
  | preview (path : Option (List (Point α)))
  | grip (mode : Gripper.Mode) (maxEffort : Option α)
  | drive (vx wz : α)
  | light (color : String)
  | sleep (seconds : α)
  /-- Hand out a reading. -/
  | reading (distance : Value α)
  /-- Give up: what comes next asks for something that is of no use. -/
  | fail (fault : Fault α)

variable [Scalar α]

/-! ### From commands to steps -/

/-- A step for a value that may be of no use. -/
def Step.using (value : Except (Fault α) β) (step : β → Step α) : Step α :=
  match value with
  | .ok b => step b
  | .error fault => .fail fault

/-- The length of a pause. One that is not positive may be of any size. -/
def Step.seconds? (pause : Value α) : Except (Fault α) α := do
  let n ← pause.number?
  if n.atMost 0 then return n.value else n.scalar?

/-- A pause from the settings. -/
def Step.pausing (pause : Value α) : Step α := .using (Step.seconds? pause) .sleep

/-- The share of a duration that each of `n` equal parts has. -/
def Step.share? (duration : Value α) (n : Nat) : Except (Fault α) α := do
  (← duration.number?).quotient? n

/-- Steps that follow a path: each configuration is held for its share of the time. -/
def Step.follow (path : List (Joints α)) (segmentTime : α) : List (Step α) :=
  path.flatMap fun q => [.pose q, .sleep segmentTime]

/-- The steps that bring the tip to a point. The path of the tip is shown until a while after its
end. -/
def Step.toPose? (cfg : Settings α) (target : Point α) (current : Joints α) :
    Except (Fault α) (List (Step α)) := do
  let goal ← Arm.inverse? target.toList (some current.toList) cfg.solver.passes cfg.solver.tolerance
  let path ← Trajectory.rows? current.toList goal.toList cfg.motion.segments
  let tips ← Trajectory.tips? path
  let walk := match Step.share? cfg.motion.poseTime (path.length - 1) with
    | .ok seconds => Step.follow path.tail seconds
    | .error fault => [.fail fault]
  return .preview (some tips) :: walk ++ [Step.pausing cfg.motion.previewTime, .preview none]

/-- The steps that close the gripper with an effort threshold, or with the one of the settings. -/
def Step.toClose (cfg : Settings α) (effort : Option α) : List (Step α) :=
  match effort, cfg.grip.maxEffort with
  | some e, _ => [.grip .closed (some e)]
  | none, .null => [.grip .closed none]
  | none, v => [.grip .closed none, .using v.numeric? fun e => .grip .closed (some e)]

/-- The steps of a command that begins in a scene. -/
def Command.steps? (cfg : Settings α) (scene : Scene α) :
    Command α → Except (Fault α) (List (Step α))
  | .moveJoint number angle =>
    match Joint.numbered? number with
    | some j => .ok [.turn j (scene.station.arm.joints.get j) angle scene.clock.now]
    | none => .error .noSuchJoint
  | .openGripper => .ok [.grip .open none, Step.pausing cfg.pauses.gripper]
  | .closeGripper effort => .ok (Step.toClose cfg effort ++ [Step.pausing cfg.pauses.gripper])
  | .moveToPose target => Step.toPose? cfg target scene.station.arm.joints
  | .move vx wz => .ok [.drive vx wz, Step.pausing cfg.pauses.velocity]
  | .getDistance =>
    let reading := match scene.station.rover.distance with
      | .null => []
      | distance => [.reading distance]
    .ok (Step.pausing cfg.pauses.distance :: reading)
  | .setLight color => .ok [.light color, Step.pausing cfg.pauses.light]
  | .other _ kind => .error (.noHandler kind)

/-! ### Taking a step -/

/-- How a step ended. -/
inductive Step.Outcome (α : Type) where
  | done
  | reading (distance : Value α)
  /-- The program has to wait for a ticket, and has these steps before it afterwards. -/
  | waits (ticket : Nat) (again : List (Step α))

/-- The share of a duration that has passed after `elapsed`, at most 1. A duration that is not
positive passes at once. -/
def Step.progress? (elapsed : α) (duration : Value α) : Except (Fault α) α := do
  let n ← duration.number?
  if n.above 0 then return Scalar.lesser (elapsed / (← n.scalar?)) 1 else return 1

/-- Wait, if the pause has a length. -/
def Step.pause (p : Pause α) (again : List (Step α)) (scene : Scene α) :
    Step.Outcome α × Scene α :=
  match scene.clock.dueAfter p with
  | none => (.done, scene)
  | some due => (.waits scene.clock.issued again, { scene with clock := scene.clock.register due })

/-- Change the station. -/
def Step.write (f : Station α → Station α) : Action α (Scene α) (Step.Outcome α) := do
  modify (·.onStation f)
  return .done

/-- Take one step. -/
def Step.take (cfg : Settings α) (step : Step α) : Action α (Scene α) (Step.Outcome α) :=
  match step with
  | .turn j start target since => do
    let progress ← Action.lift (progress? ((← get).clock.now - since) cfg.motion.jointTime)
    let angle := start + (target - start) * Trajectory.ease progress
    modify (·.onStation (·.setJoint j angle))
    if 1 ≤ progress then return .done else modifyGet (pause .nextFrame [step])
  | .pose q => write (·.setJoints q)
  | .preview path => write (·.setPreview path)
  | .grip mode maxEffort => write (·.setGripper mode maxEffort)
  | .drive vx wz => do
    let now := (← get).clock.now
    Action.on Scene.station (fun scene station => { scene with station })
      (Station.setVelocities cfg.driving vx wz (some now))
    return .done
  | .light color => write (·.setColor color)
  | .sleep seconds => modifyGet (pause (.sleep seconds) [])
  | .reading distance => return .reading distance
  | .fail fault => throw fault

end ArmRover
