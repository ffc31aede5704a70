import ArmRover.Simulation.Basic
import ArmRover.Value.Text
import ArmRover.Decimal.Fixed
import ArmRover.Scalar.Binary64

/-!
# Reports

The state of the active robot as text for a reader: joints, tip and gripper of the arm, or pose,
velocities, light, readings and map of the rover.

* `Simulation.report?` — the text. What comes straight from the settings may have no text.
-/

namespace ArmRover

namespace Report

open Decimal (fixed)

/-- The line above and below a report. -/
def rule : String := String.ofList (List.replicate 60 '=')

/-- A value of the settings with so many decimals. Only numbers have decimals. -/
def decimals? (places : Nat) : Value Float → Except (Fault Float) String
  | .text _ => .error .notNumeric
  | v => fixed places <$> v.scalar?

/-- Coordinates, to the millimetre. -/
def position (x y z : String) : String := s!"[{x}, {y}, {z}]"

/-- The names of the joints: the items of a list, the characters of a text, or the keys of a
mapping. -/
def names? : Value Float → Except (Fault Float) (List String)
  | .list items => .ok (items.map Value.shown)
  | .text s => .ok (s.toList.map Char.toString)
  | .map fields => .ok (fields.map Prod.fst)
  | _ => .error .wrongKind

/-- The angles of the joints that have names. -/
def joints (names : List String) (q : Joints Float) : List String :=
  List.zipWith (fun name angle => s!"  {name}: {fixed 2 angle} deg") names q.toList

/-- The arm and its gripper. -/
def arm? (names : Value Float) (s : Station Float) : Except (Fault Float) (List String) := do
  let joints := joints (← names? names) s.arm.joints
  let tip := s.arm.joints.tip
  let effort ← decimals? 2 s.gripper.maxEffort
  return ["", "--- Joints ---"] ++ joints ++
    ["", s!"End effector: {position (fixed 3 tip.x) (fixed 3 tip.y) (fixed 3 tip.z)}",
      s!"Gripper: {s.gripper.mode.name} (max effort {effort})"]

/-- The readings of a program, with their numbers. -/
def readings? (distances : List (Value Float)) : Except (Fault Float) (List String) :=
  distances.zipIdx.mapM fun (distance, i) => do
    let distance ← decimals? 2 distance
    return s!"  getDistance #{i}: {distance}m"

/-- The number of cells of each kind, if there is a map. -/
def cells : Option (Grid Float) → List String
  | none => []
  | some g =>
    [s!"Map: {g.count .free} free, {g.count .occupied} occupied, {g.count .unknown} unknown cells"]

/-- The rover, its sensors and its map. A position that is text has no decimals. -/
def rover? (distances : List (Value Float)) (s : Station Float) :
    Except (Fault Float) (List String) := do
  let r := s.rover
  let height ← decimals? 3 r.height
  let vx ← r.vx.scalar?
  let wz ← r.wz.scalar?
  let distance ← decimals? 2 r.distance
  let readings ← readings? distances
  return ["", s!"Position: {position (fixed 3 r.x) height (fixed 3 r.z)}",
      s!"Heading: {fixed 1 (Scalar.degrees r.heading)} deg",
      s!"Velocity: vx={fixed 3 vx} m/s, wz={fixed 3 wz} rad/s",
      s!"LED: {r.light.shown}",
      s!"Distance sensor: {distance}m"] ++
    readings ++ cells s.map

/-- The lines of a report on a station at a time. -/
def lines? (names : Value Float) (distances : List (Value Float)) (now : Float)
    (s : Station Float) : Except (Fault Float) (List String) := do
  let robot ← match s.active with
    | .arm => arm? names s
    | .rover => rover? distances s
  return ["", rule, "ROBOT SANDBOX REPORT", rule, "", s!"Robot: {s.active.name}",
    s!"Simulation time: {fixed 2 now}s"] ++ robot ++ ["", rule]

end Report

/-- The report on a simulation, with the readings of its program. Every line ends with a line
feed. -/
def Simulation.report? (cfg : Settings Float) (readings : List (Value Float))
    (s : Simulation Float) : Except (Fault Float) String := do
  let lines ← Report.lines? cfg.motion.jointNames readings s.scene.clock.now s.scene.station
  return String.join (lines.map (· ++ "\n"))

end ArmRover
