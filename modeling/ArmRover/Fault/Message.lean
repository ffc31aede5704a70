import ArmRover.Fault
import ArmRover.Value.Text
import ArmRover.Decimal.Fixed

/-!
# What the library says about a fault

`Fault.message` is the text of a fault that the rules of the library themselves raise. The faults
of arithmetic, of reading and of looking things up have none, and a text is told only once.
-/

namespace ArmRover

/-- The text of a fault, for those that have one. A missing entry is told by its name. -/
def Fault.message : Fault Float → Option String
  | jointCount found => some s!"Expected 5 joint angles, got shape ({found},)"
  | segmentCount n => some s!"num_steps must be at least 1, got {n.shown}"
  | rayCount n => some s!"num_rays must be at least 1, got {n.shown}"
  | lidarRayCount n => some s!"sensors.lidar_rays must be at least 1, got {n.shown}"
  | mapSettings => some "mapping.map_size and mapping.resolution must give at least one cell"
  | emptyMap side density => some s!"map of {side.shown}m at {density.shown} cells/m has no cells"
  | updateRate rate => some s!"update_rate must be positive, got {rate.shown}"
  | unknownShape shape => some ("Unknown obstacle shape '" ++ shape.shown ++ "'")
  | missing key => some key
  | noHandler kind => some s!"No handler for command type {kind}"
  | alreadyRunning => some "A program is already running; reset first"
  | robotLocked => some "Cannot switch robot while a program is running"
  | timedOut limit => some s!"Program still running after {Decimal.fixed 1 limit}s"
  | coordinateCount | noSuchJoint | mapTooLarge | outOfMemory | noProgram | toldBefore _
  | unknownRobot | wrongKind | notSingle | notNumeric | notAMapping | tooManyDigits | infiniteAngle
  | wholeOfNaN | wholeOfInfinity | tooLarge | divisionByZero | noSuchFile | outOfFrames => none

end ArmRover
