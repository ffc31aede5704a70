import ArmRover.Arm.Joints
import ArmRover.Map.Fusion
import ArmRover.Settings.Basic

/-!
# The station

The two robots, which of them is being driven, and the map that the rover draws. Programs, physics
and sensors read and write the robots only here.

* `Arm`, `Gripper`, `Rover` — the state of the robots, `Station` — all of it.
* `Station.new`, `Station.home` — the state at the start, and after a reset of the active robot.
* `Station.setJoint?`, `Station.setVelocities` and others — the writes.

What comes straight from the settings (the effort threshold, the height, the light, the distance
before the first reading) is plain data. Velocities and the effort are numbers that keep their kind,
since their limits come from the settings.
-/

namespace ArmRover

/-- The state of the arm. -/
structure Arm (α : Type) where
  joints : Joints α
  /-- In degrees a second. -/
  velocities : Joints α
  /-- The path of the tip that is being followed. -/
  preview : Option (List (Point α))
  /-- The joints when the velocities were last measured, if that was since the last reset. -/
  measured : Option (Joints α)

/-- What the gripper is asked to be. -/
inductive Gripper.Mode where
  | open
  | closed
  deriving DecidableEq, Repr

/-- The word for a mode in reports. -/
def Gripper.Mode.name : Gripper.Mode → String
  | .open => "OPEN"
  | .closed => "CLOSED"

/-- The state of the gripper. -/
structure Gripper (α : Type) where
  mode : Gripper.Mode
  /-- From 0, closed, to 1, open. -/
  opening : α
  effort : Number α
  maxEffort : Value α

/-- A sample of telemetry. -/
structure Sample (α : Type) where
  time : α
  vx : Number α
  wz : Number α
  deriving Repr

/-- The state of the rover. -/
structure Rover (α : Type) where
  x : α
  z : α
  /-- The height of its origin above the ground. -/
  height : Value α
  /-- The angle about the vertical, in radians. -/
  heading : α
  /-- The forward velocity. -/
  vx : Number α
  /-- The turning velocity. -/
  wz : Number α
  /-- The time of the last velocity command that had one. -/
  lastCommand : Option α
  light : Value α
  /-- The last reading of the distance sensor. -/
  distance : Value α
  scan : List (Reading α)
  history : List (Sample α)

/-- When the sensors were last refreshed. -/
structure Gates (α : Type) where
  distance : Option α
  scan : Option α
  deriving DecidableEq, Repr

/-- Gates of sensors that have not been refreshed. -/
def Gates.open : Gates α := ⟨none, none⟩

/-- The state of the robots. -/
structure Station (α : Type) where
  active : Robot
  arm : Arm α
  gripper : Gripper α
  rover : Rover α
  map : Option (Grid α)
  gates : Gates α

variable [Scalar α]

/-! ### Home -/

/-- An arm at rest with all joints at zero. -/
def Arm.home : Arm α := ⟨.zero, .zero, none, none⟩

/-- A closed gripper. -/
def Gripper.home (grip : Settings.Grip α) : Gripper α := ⟨.closed, 0, .real 0, grip.maxEffort⟩

omit [Scalar α] in
/-- A height as a position holds it: text without the characters of code 0 at its end. -/
def Rover.heldHeight : Value α → Value α
  | .text s =>
    .text (String.ofList (s.toList.reverse.dropWhile fun c => c.toNat = 0).reverse)
  | v => v

/-- A rover at rest at the origin, before its first reading. -/
def Rover.home (driving : Settings.Driving α) (senses : Settings.Senses α) : Rover α :=
  { x := 0
    z := 0
    height := heldHeight driving.groundOffset
    heading := 0
    vx := .real 0
    wz := .real 0
    lastCommand := none
    light := driving.light
    distance := senses.range
    scan := []
    history := [] }

omit [Scalar α] in
/-- How the coordinates of a position with the given height are held. With a height that is text
all are text; with one that is no number of at most 64 binary digits, they are held as they are
given. -/
def Rover.form (height : Value α) : Vantage.Form :=
  match height with
  | .text _ => .text
  | .number n => if n.fitsItem then .computed else .given
  | .bool _ | .list _ => .computed
  | .null | .map _ => .given

omit [Scalar α] in
/-- The point of the ground below the rover. -/
def Rover.ground (r : Rover α) : Vantage α := ⟨r.x, r.z, form r.height⟩

namespace Station

/-- The station at the start. -/
def new (rig : Rig α) : Station α :=
  { active := rig.robot
    arm := .home
    gripper := .home rig.grip
    rover := .home rig.driving rig.senses
    map := none
    gates := .open }

/-- Bring the arm home. -/
def homeArm (rig : Rig α) (s : Station α) : Station α :=
  { s with arm := .home, gripper := .home rig.grip }

/-- Bring the rover home and forget the map. -/
def homeRover (rig : Rig α) (s : Station α) : Station α :=
  { s with rover := .home rig.driving rig.senses, map := none }

/-- Bring the active robot home. -/
def home (rig : Rig α) (s : Station α) : Station α :=
  match s.active with
  | .arm => s.homeArm rig
  | .rover => s.homeRover rig

/-! ### The arm -/

/-- Set one joint, brought into its range. -/
def setJoint (s : Station α) (j : Joint) (angle : α) : Station α :=
  { s with arm := { s.arm with joints := s.arm.joints.set j (j.clamp angle) } }

/-- Set the joint with a given number. -/
def setJoint? (number : Int) (angle : α) : Action α (Station α) Unit :=
  match Joint.numbered? number with
  | some j => modify (·.setJoint j angle)
  | none => throw .noSuchJoint

/-- Set all joints, brought into their ranges. -/
def setJoints (s : Station α) (q : Joints α) : Station α :=
  { s with arm := { s.arm with joints := q.clamp } }

/-- Ask the gripper to open or close, with an effort threshold if one is given. -/
def setGripper (s : Station α) (mode : Gripper.Mode) (maxEffort : Option α) : Station α :=
  let threshold := match maxEffort with
    | some e => .real (Scalar.clamp e 0 1)
    | none => s.gripper.maxEffort
  { s with gripper := { s.gripper with mode, maxEffort := threshold } }

omit [Scalar α] in
/-- Publish the path of the tip, or take it away. -/
def setPreview (s : Station α) (path : Option (List (Point α))) : Station α :=
  { s with arm := { s.arm with preview := path } }

/-! ### The rover -/

/-- A velocity brought into the range from `-limit` to `limit`. One at a limit is the limit, of
the kind that the settings give it. -/
def limited? (limit : Value α) (v : α) : Except (Fault α) (Number α) := do
  let limit ← limit.number?
  return (Number.real v).clamp limit.negated limit

/-- Set the velocities, first the forward and then the turning one, each brought into its limits. A
time makes it a command that the watchdog counts from. -/
def setVelocities (driving : Settings.Driving α) (vx wz : α) (time : Option α) :
    Action α (Station α) Unit := do
  let vx ← Action.lift (limited? driving.maxLinear vx)
  modify fun s => { s with rover := { s.rover with vx } }
  let wz ← Action.lift (limited? driving.maxAngular wz)
  modify fun s =>
    { s with rover := { s.rover with wz, lastCommand := time <|> s.rover.lastCommand } }

omit [Scalar α] in
/-- Put the rover somewhere. -/
def moveTo (s : Station α) (p : Point α) : Station α :=
  { s with rover := { s.rover with x := p.x, height := .real p.y, z := p.z } }

omit [Scalar α] in
/-- Turn the rover. -/
def turnTo (s : Station α) (heading : α) : Station α :=
  { s with rover := { s.rover with heading } }

omit [Scalar α] in
/-- Light the rover. -/
def setColor (s : Station α) (color : String) : Station α :=
  { s with rover := { s.rover with light := .text color } }

omit [Scalar α] in
/-- Store a reading of the distance sensor. -/
def setReading (s : Station α) (distance : α) : Station α :=
  { s with rover := { s.rover with distance := .real distance } }

/-- Add a sample of the current velocities, and drop those from the front of the history that are
older than the window. -/
def addSample (now : α) (window : Value α) : Action α (Station α) Unit := do
  modify fun s =>
    let sample := ⟨now, s.rover.vx, s.rover.wz⟩
    { s with rover := { s.rover with history := s.rover.history ++ [sample] } }
  let window ← Action.lift window.scalar?
  modify fun s =>
    let fresh := s.rover.history.dropWhile fun sample => sample.time < now - window
    { s with rover := { s.rover with history := fresh } }

end Station

end ArmRover
