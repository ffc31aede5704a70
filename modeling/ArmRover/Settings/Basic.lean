import ArmRover.Settings.Sections
import ArmRover.Command
import ArmRover.Map.Grid

/-!
# Settings

The settings as the parts of the simulation use them, one structure for each section of a
configuration. Every section has to have its entries. Most entries are plain data until they are
needed, so that a useless one harms nobody who does not use it; those that decide whether there is a
simulation at all are read at once.

* `Rig` — the settings of the robots and their sensors, `Settings` — these and the settings of
  programs.
* `Settings.section?`, `Settings.entry?` — looking up sections and entries.
* `Rig.ofSections?`, `Settings.ofSections?` — the settings of a configuration. Some sections can
  also be read alone.
-/

namespace ArmRover

namespace Settings

/-- How the simulation runs. -/
structure Run (α : Type) where
  /-- The time of a frame, unless another one is asked for. -/
  frameTime : α
  /-- The time that a program may take when it is run from the command line, or null. -/
  timeLimit : Value α

/-- How the arm carries out its commands. -/
structure Motion (α : Type) where
  jointNames : Value α
  /-- The time for turning one joint. -/
  jointTime : Value α
  /-- The time for a whole trajectory. -/
  poseTime : Value α
  /-- The number of segments of a trajectory. -/
  segments : Value α
  /-- How long the preview of a trajectory stays after its end. -/
  previewTime : Value α

/-- The gripper. -/
structure Grip (α : Type) where
  /-- The time from open to closed. -/
  strokeTime : Value α
  /-- The effort threshold of an arm that was reset. -/
  maxEffort : Value α

/-- The inverse kinematics. -/
structure Solver (α : Type) where
  passes : Value α
  tolerance : Value α

/-- The rover. -/
structure Driving (α : Type) where
  /-- The height of its origin above the ground. -/
  groundOffset : Value α
  maxLinear : Value α
  maxAngular : Value α
  /-- What is left of a velocity after one period of the reference rate. -/
  friction : Value α
  frictionRate : Value α
  /-- The magnitude below which a velocity becomes zero. -/
  leastSpeed : Value α
  /-- How long a velocity command stays valid. -/
  watchdog : Value α
  /-- How long telemetry is kept. -/
  historyTime : Value α
  light : Value α

/-- The sensors of the rover. -/
structure Senses (α : Type) where
  range : Value α
  /-- The shortest time between two refreshes of the distance sensor. -/
  interval : α
  /-- The number of rays of the lidar, at least 1. -/
  rays : Number α
  scanInterval : Value α

/-- The map. -/
structure Mapping (α : Type) where
  side : Number α
  density : Number α
  /-- The share of the range below which a reading is a hit. -/
  hitRatio : Value α

/-- How long the program waits after each kind of step. -/
structure Pauses (α : Type) where
  reset : Value α
  gripper : Value α
  velocity : Value α
  distance : Value α
  light : Value α

end Settings

/-- The settings of the robots and their sensors. -/
structure Rig (α : Type) where
  /-- The robot that is active at the start. -/
  robot : Robot
  grip : Settings.Grip α
  driving : Settings.Driving α
  senses : Settings.Senses α
  mapping : Settings.Mapping α

/-- The settings of a simulation. -/
structure Settings (α : Type) extends Rig α where
  run : Settings.Run α
  motion : Settings.Motion α
  solver : Settings.Solver α
  pauses : Settings.Pauses α

namespace Settings

/-! ### Looking up entries -/

/-- The entries of a section. -/
def section? (config : Sections α) (name : String) : Except (Fault α) (Fields (Value α)) :=
  match config.get? name with
  | some (.map fields) => .ok fields
  | some _ => .error .wrongKind
  | none => .error (.missing name)

/-- An entry that has to be there. -/
def entry? (fields : Fields (Value α)) (key : String) : Except (Fault α) (Value α) :=
  match fields.get? key with
  | some v => .ok v
  | none => .error (.missing key)

/-! ### Sections whose entries are not used yet -/

/-- The robot that is active at the start. -/
def robot? (config : Sections α) : Except (Fault α) Robot := do
  let fields ← section? config "simulation"
  match ← entry? fields "default_robot" with
  | .text name =>
    match Robot.named? name with
    | some robot => return robot
    | none => throw .unknownRobot
  | _ => throw .unknownRobot

/-- The section on the motion of the arm. -/
def Motion.ofSections? (config : Sections α) : Except (Fault α) (Motion α) := do
  let fields ← section? config "arm"
  return {
    jointNames := ← entry? fields "joint_names"
    jointTime := ← entry? fields "move_joint_duration"
    poseTime := ← entry? fields "move_to_pose_duration"
    segments := ← entry? fields "trajectory_steps"
    previewTime := ← entry? fields "trajectory_clear_delay" }

/-- The section on the gripper. -/
def Grip.ofSections? (config : Sections α) : Except (Fault α) (Grip α) := do
  let fields ← section? config "gripper"
  return {
    strokeTime := ← entry? fields "travel_time"
    maxEffort := ← entry? fields "default_max_effort" }

/-- The section on the inverse kinematics. -/
def Solver.ofSections? (config : Sections α) : Except (Fault α) (Solver α) := do
  let fields ← section? config "ik"
  return {
    passes := ← entry? fields "max_iterations"
    tolerance := ← entry? fields "tolerance" }

/-- The section on the rover. A list is no height, since it cannot stand among the coordinates of a
position. -/
def Driving.ofSections? (config : Sections α) : Except (Fault α) (Driving α) := do
  let fields ← section? config "rover"
  let groundOffset ← entry? fields "ground_offset"
  if let .list _ := groundOffset then throw .coordinateCount
  return {
    groundOffset
    maxLinear := ← entry? fields "max_linear_velocity"
    maxAngular := ← entry? fields "max_angular_velocity"
    friction := ← entry? fields "friction_coefficient"
    frictionRate := ← entry? fields "reference_rate"
    leastSpeed := ← entry? fields "velocity_floor"
    watchdog := ← entry? fields "watchdog_timeout"
    historyTime := ← entry? fields "velocity_history_window"
    light := ← entry? fields "default_led_color" }

/-- The section on the pauses of a program. A section that is no mapping shows only when the first
pause is made. -/
def Pauses.ofSections? (config : Sections α) : Except (Fault α) (Pauses α) := do
  match config.get? "executor" with
  | some (.map fields) =>
    return {
      reset := ← entry? fields "reset_settle"
      gripper := ← entry? fields "gripper_settle"
      velocity := ← entry? fields "velocity_settle"
      distance := ← entry? fields "distance_settle"
      light := ← entry? fields "light_settle" }
  | some _ => return ⟨.null, .null, .null, .null, .null⟩
  | none => throw (.missing "executor")

/-! ### Sections that are checked at once -/

variable [Scalar α]

/-- The sections on the sensors and on the map. -/
def senses? (config : Sections α) : Except (Fault α) (Senses α × Mapping α) := do
  let sensors ← section? config "sensors"
  let map ← section? config "mapping"
  let range ← entry? sensors "distance_range"
  let rays ← entry? sensors "lidar_rays"
  let scanInterval ← entry? sensors "lidar_update_interval"
  let side ← entry? map "map_size"
  let density ← entry? map "resolution"
  let hitRatio ← entry? map "occupied_range_ratio"
  let n ← rays.number?
  if n.below 1 then throw (.lidarRayCount rays)
  let (side, density) ← Grid.extent? side density .mapSettings
  let rate ← entry? sensors "distance_update_rate"
  if (← rate.number?).atMost 0 then throw (.updateRate rate)
  let interval := 1 / (← rate.scalar?)
  return (⟨range, interval, n, scanInterval⟩, ⟨side, density, hitRatio⟩)

/-- The time of a frame, for a rate that is not zero. -/
def frameTime? (config : Sections α) : Except (Fault α) α := do
  let rate ← entry? (← section? config "simulation") "frame_rate"
  Scalar.divide? 1 (← rate.scalar?)

end Settings

/-- The settings of the robots and their sensors in a configuration. -/
def Rig.ofSections? [Scalar α] (config : Sections α) : Except (Fault α) (Rig α) := do
  let robot ← Settings.robot? config
  let grip ← Settings.Grip.ofSections? config
  let driving ← Settings.Driving.ofSections? config
  let (senses, mapping) ← Settings.senses? config
  return { robot, grip, driving, senses, mapping }

/-- The settings of a configuration. -/
def Settings.ofSections? [Scalar α] (config : Sections α) : Except (Fault α) (Settings α) := do
  let robot ← robot? config
  let grip ← Grip.ofSections? config
  let driving ← Driving.ofSections? config
  let _ ← section? config "sensors"
  let solver ← Solver.ofSections? config
  let motion ← Motion.ofSections? config
  let pauses ← Pauses.ofSections? config
  let (senses, mapping) ← senses? config
  let frameTime ← frameTime? config
  let timeLimit ← entry? (← section? config "simulation") "max_program_time"
  return {
    robot, grip, driving, senses, mapping, solver, motion, pauses
    run := { frameTime, timeLimit } }

end ArmRover
