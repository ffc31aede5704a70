import ArmRover.Geometry.Point

/-!
# Commands

What a program can ask of the two robots. Every command belongs to one of them; while the other
is being driven it is passed over.
-/

namespace ArmRover

/-- The robots. -/
inductive Robot where
  | arm
  | rover
  deriving DecidableEq, Repr

/-- The name by which settings and options select a robot. -/
def Robot.name : Robot → String
  | arm => "arm"
  | rover => "rover"

/-- The robot with a given name. -/
def Robot.named? (name : String) : Option Robot :=
  if name = "arm" then some .arm
  else if name = "rover" then some .rover
  else none

/-- One command of a program. Angles are in degrees, lengths in metres, `move` is in metres and
radians a second. -/
inductive Command (α : Type) where
  /-- Turn one joint to an angle. Joints count from 0, or backwards from -1. -/
  | moveJoint (joint : Int) (angle : α)
  | openGripper
  /-- Close the gripper, with an effort threshold or with the one of the settings. -/
  | closeGripper (effort : Option α)
  /-- Bring the tip to a point. -/
  | moveToPose (target : Point α)
  /-- Drive with a forward and a turning velocity. -/
  | move (vx wz : α)
  | getDistance
  | setLight (color : String)
  /-- A kind of command for `robot` that no rule here carries out. -/
  | other (robot : Robot) (kind : String)
  deriving DecidableEq, Repr

/-- The robot that a command drives. -/
def Command.robot : Command α → Robot
  | moveJoint .. | openGripper | closeGripper _ | moveToPose _ => .arm
  | move .. | getDistance | setLight _ => .rover
  | other robot _ => robot

/-- Whether a rule carries the command out. -/
def Command.handled : Command α → Bool
  | other .. => false
  | _ => true

@[simp] theorem Robot.named?_name (r : Robot) : Robot.named? r.name = some r := by
  cases r <;> decide

end ArmRover
