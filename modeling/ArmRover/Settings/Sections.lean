import ArmRover.Value.Basic
import ArmRover.Fault

/-!
# Configurations

A configuration maps the names of sections to settings. The standard one is built in; a user's
one only names what it changes.

* `Sections.standard` — the built-in configuration.
* `Sections.override` — user sections put over a configuration.
* `Sections.load?` — the configuration for a user's value.
-/

namespace ArmRover

/-- Settings by section. -/
abbrev Sections (α : Type) := Fields (Value α)

namespace Sections

variable [Scalar α]

/-- A whole number. -/
def whole (n : Int) : Value α := .number (.whole n)

/-- The built-in configuration. Units are metres, seconds and radians; an `effort` and a `ratio`
have none, a `rate` is in hertz, and a resolution is in cells a metre. -/
def standard : Sections α :=
  [("simulation", .map
      [("frame_rate", whole 60),
       ("default_robot", .text "arm"),
       ("max_program_time", .real 120.0)]),
   ("arm", .map
      [("joint_names", .list
          [.text "Base", .text "Shoulder", .text "Elbow", .text "Wrist", .text "GripperRotation"]),
       ("move_joint_duration", .real 1.0),
       ("move_to_pose_duration", .real 2.0),
       ("trajectory_steps", whole 20),
       ("trajectory_clear_delay", .real 0.5)]),
   ("gripper", .map
      [("travel_time", .real 0.25),
       ("default_max_effort", .real 0.8)]),
   ("ik", .map
      [("max_iterations", whole 50),
       ("tolerance", .real 0.01)]),
   ("rover", .map
      [("ground_offset", .real 0.1),
       ("max_linear_velocity", .real 2.0),
       ("max_angular_velocity", .real 1.5),
       ("friction_coefficient", .real 0.95),
       ("reference_rate", whole 60),
       ("velocity_floor", .real 0.01),
       ("watchdog_timeout", .real 0.5),
       ("velocity_history_window", .real 10.0),
       ("default_led_color", .text "#ffffff")]),
   ("sensors", .map
      [("distance_range", .real 5.0),
       ("distance_update_rate", whole 10),
       ("lidar_rays", whole 36),
       ("lidar_update_interval", .real 0.1)]),
   ("mapping", .map
      [("map_size", whole 10),
       ("resolution", whole 5),
       ("occupied_range_ratio", .real 0.95)]),
   ("executor", .map
      [("reset_settle", .real 0.5),
       ("gripper_settle", .real 0.3),
       ("velocity_settle", .real 0.05),
       ("distance_settle", .real 0.1),
       ("light_settle", .real 0.1)])]

omit [Scalar α] in
/-- Put one section over a configuration. Where both sides are mappings, the entries of the new
one are put over those of the old one; otherwise the new one takes the place. -/
def putSection (config : Sections α) (name : String) (new : Value α) : Sections α :=
  match config.get? name, new with
  | some (.map old), .map fields => config.put name (.map (Fields.merge old fields))
  | _, _ => config.put name new

omit [Scalar α] in
/-- Put sections over a configuration, in order. -/
def override (config : Sections α) (sections : Fields (Value α)) : Sections α :=
  sections.foldl (fun config (name, new) => config.putSection name new) config

/-- The configuration for a user's value, which has to be a mapping or nothing. -/
def load? (user : Value α) : Except (Fault α) (Sections α) :=
  if !user.isSomething then .ok standard
  else match user with
    | .map sections => .ok (standard.override sections)
    | _ => .error .notAMapping

end Sections

end ArmRover
