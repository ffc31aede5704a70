import ArmRover.Arm.Joints
import ArmRover.Geometry.Transform

/-!
# Forward kinematics

Where the tip of the hand is. The links are measured from the vertical and tilt the arm towards
its reach; the base turns that plane about the vertical axis.

* The lengths of the links.
* `Joints.hand` — the transform from the ground to the tip, `Joints.tip` — the position of the
  tip.
-/

namespace ArmRover

namespace Arm

variable [Scalar α]

/-! ### Lengths, in metres -/

/-- The height of the base. -/
@[inline] def standHeight : α := 0.3

/-- The link from shoulder to elbow. -/
@[inline] def upperArm : α := 0.8

/-- The link from elbow to wrist. -/
@[inline] def forearm : α := 0.7

/-- The link from the wrist to the gripper. -/
@[inline] def palm : α := 0.3

/-- From the end of the wrist link to the tip. -/
@[inline] def fingers : α := 0.15

/-- The height of the shoulder pivot. -/
@[inline] def pivotHeight : α := standHeight / 2

/-- The length of the hand, from the wrist to the tip. -/
@[inline] def handSpan : α := palm + fingers

/-- The length of the arm stretched out from the shoulder. -/
@[inline] def fullReach : α := upperArm + forearm + palm + fingers

end Arm

namespace Joints

variable [Scalar α]

open Arm

/-- The transform from the ground to the tip. -/
def hand (q : Joints α) : Transform α :=
  let r := q.map fun _ angle => Scalar.radians angle
  (((((((Transform.turnY r.base).comp (Transform.lift pivotHeight)).comp
    (Transform.turnZ (-r.shoulder))).comp (Transform.lift upperArm)).comp
    (Transform.turnZ (-r.elbow))).comp (Transform.lift forearm)).comp
    (Transform.turnZ (-r.wrist))).comp (Transform.lift handSpan) |>.comp
    (Transform.turnY r.gripper)

/-- The position of the tip. -/
def tip (q : Joints α) : Point α := q.hand.shift

/-- The position of the tip, for angles that have a sine. -/
def tip? (q : Joints α) : Except (Fault α) (Point α) :=
  if q.toList.any Scalar.isInfinite then .error .infiniteAngle else .ok q.tip

end Joints

end ArmRover
