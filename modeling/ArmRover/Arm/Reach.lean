import ArmRover.Arm.Forward

/-!
# Reach

A target that is farther from the origin of the world than the arm is long is pulled in along the
line to the origin.

* `intoReach` — the target that is aimed at, in any number of dimensions.
-/

namespace ArmRover

open Arm

variable [Scalar α]

/-- The coordinates, scaled down if they are out of reach. -/
def intoReach (coordinates : List α) : List α :=
  let distance := Point.length coordinates
  if fullReach < distance then coordinates.map (· * (fullReach / distance)) else coordinates

end ArmRover
