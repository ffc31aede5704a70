import ArmRover.Arm.Planar
import ArmRover.Arm.Reach
import ArmRover.Value.Measure

/-!
# Inverse kinematics

Joint angles that bring the tip to a target. Each pass turns the base towards the aim and solves
the plane of the arm; later passes move the aim by the error that the joint limits left. The best
configuration of all passes is the answer.

* `aimed?` — one pass.
* `Search` — the state of the passes, `Search.run?` — the passes.
* `inverse?` — the answer for a target.

The tolerance is plain data, and every pass that needs it asks it anew: the search with the error of
the tip, which is a computed number, and the plane of the arm with a given one.
-/

namespace ArmRover

namespace Arm

variable [Scalar α]

/-- The bearing of the base towards a point, in degrees. Straight above or below the base it
stays as it was. -/
@[specialize] def bearing (aim : Point α) (previous : α) : α :=
  if 1e-9 < Scalar.hypot aim.x aim.z then Scalar.degrees (Scalar.atan2 (-aim.z) aim.x)
  else previous

/-- The position of a point in the plane of the arm, for a given bearing of the base. -/
@[specialize] def spotOf (aim : Point α) (base : α) : Spot α :=
  let b := Scalar.radians base
  ⟨aim.x * Scalar.cos b - aim.z * Scalar.sin b, aim.y - pivotHeight⟩

/-- The angles in the plane: with the hand level if that is possible, else with the wrist straight
if that comes close enough within the limits, else the best of a sweep. -/
@[specialize] def planarFor? (spot : Spot α) (tolerance : Value α) :
    Except (Fault α) (Planar α) := do
  match level? spot with
  | some p => return p
  | none =>
    let p := (stretched spot).clamp
    if ← tolerance.ask? (·.below (p.tip.distance spot)) then return (swept? spot).getD p
    return p

/-- One pass: bearing and plane, within the limits. The rotation of the gripper stays. -/
@[specialize] def aimed? (aim : Point α) (previous : Joints α) (tolerance : Value α) :
    Except (Fault α) (Joints α) := do
  let base := bearing aim previous.base
  let p ← planarFor? (spotOf aim base) tolerance
  return Joints.clamp ⟨base, p.shoulder, p.elbow, p.wrist, previous.gripper⟩

/-- The state of the passes. -/
structure Search (α : Type) where
  /-- The configuration to be judged next. -/
  current : Joints α
  /-- The point that the next pass aims at. -/
  aim : Point α
  /-- The best configuration so far, and the distance of its tip from the target, once one has
  been judged. -/
  best : Joints α
  bestError : Option α

namespace Search

/-- Before the first pass. -/
def start (target : Point α) (initial : Joints α) : Search α := ⟨initial, target, initial, none⟩

/-- The vector from the tip to the target. -/
def error (target : Point α) (s : Search α) : Point α := target - s.current.tip

/-- Judge the current configuration by its error: it becomes the best one if it is strictly better
than all before. -/
def judged (s : Search α) (size : α) : Search α :=
  let better := match s.bestError with
    | none => Scalar.belowInfinity size
    | some e => size < e
  if better then { s with best := s.current, bestError := some size } else s

/-- Make up to so many passes. The search ends early once the error is below the tolerance. From
the second pass on the aim moves by the error. -/
@[specialize] def run? (target : Point α) (tolerance : Value α) (first : Bool) :
    Nat → Search α → Except (Fault α) (Search α)
  | 0, s => .ok (s.judged (s.error target).norm)
  | passes + 1, s => do
    let error := s.error target
    let size := error.norm
    let s := s.judged size
    if ← tolerance.askComputed? (·.above size) then return s
    let aim := if first then s.aim else s.aim + error
    let current ← aimed? aim s.current tolerance
    run? target tolerance false passes { s with aim, current }

end Search

/-- The configuration that the search starts from: all joints at zero, unless one is given. -/
def initial (given : Option (Joints α)) : Joints α := (given.map Joints.clamp).getD Joints.zero

/-- The distance of a tip from a target with a single coordinate, which stands for all three. -/
def missOf (coordinate : α) (tip : Point α) : α := (⟨coordinate, coordinate, coordinate⟩ - tip).norm

/-- The answer for a target with a single coordinate, which can be judged but not aimed at. -/
def judgedOnly? (coordinate : α) (start : Joints α) (passes : Int) (tolerance : Value α) :
    Except (Fault α) (Joints α) := do
  if 0 < passes then
    if !(← tolerance.askComputed? (·.above (missOf coordinate start.tip))) then
      throw .coordinateCount
  return start.clamp

/-- Joint angles that bring the tip to a target, or as near as the search gets. The target and the
start are given as lists; the search starts from all joints at zero if there is no start. -/
@[specialize] def inverse? (target : List α) (given : Option (List α))
    (passes tolerance : Value α) : Except (Fault α) (Joints α) := do
  let start := initial (← given.mapM Joints.ofList?)
  let passes ← (← passes.number?).whole?
  match intoReach target with
  | [x, y, z] =>
    let target : Point α := ⟨x, y, z⟩
    return (← Search.run? target tolerance true passes.toNat (.start target start)).best.clamp
  | [coordinate] => judgedOnly? coordinate start passes tolerance
  | _ => throw .coordinateCount

end Arm

end ArmRover
