import ArmRover.Arm.Forward
import ArmRover.Value.Number

/-!
# Trajectories

Paths between two configurations. All joints share one progress from 0 to 1, which eases in and
out, so they start and stop together.

* `ease` — the progress after a share of the time.
* `Trajectory.rows` — the configurations along a path, `Trajectory.tips` — the positions of the
  tip.
-/

namespace ArmRover

namespace Trajectory

variable [Scalar α]

/-- Progress after the share `t` of the time: two parabolas that meet at one half. -/
def ease (t : α) : α :=
  if t < 0.5 then 2 * t * t else 1 - 2 * Scalar.square (1 - t)

/-- Progress, where its square can be written down. -/
def ease? (t : α) : Except (Fault α) α := do
  if t < 0.5 then return ease t
  let _ ← Scalar.square? (1 - t)
  return ease t

/-- The configuration at a given progress from `start` to `target`. -/
def between (start target : Joints α) (progress : α) : Joints α :=
  Joints.zipWith (fun a b => a + (b - a) * progress) start target

/-- The configurations after 0, 1, …, `n` of `n` equal segments of time. -/
def rows (start target : Joints α) (n : Nat) : List (Joints α) :=
  (List.range (n + 1)).map fun (i : Nat) =>
    between start target (ease (Scalar.ofInt i / Scalar.ofInt n))

theorem length_rows (start target : Joints α) (n : Nat) :
    (rows start target n).length = n + 1 := by
  unfold rows
  rw [List.length_map, List.length_range]

/-- A number of segments, which has to be at least 1. -/
def segments? (segments : Value α) : Except (Fault α) (Number α) := do
  let n ← segments.number?
  if n.below 1 then throw (.segmentCount segments)
  return n

/-- The configurations along a path between angles given as lists. -/
def rows? (start target : List α) (segments : Value α) : Except (Fault α) (List (Joints α)) := do
  let n ← segments? segments
  let start ← Joints.ofList? start
  let target ← Joints.ofList? target
  return rows start target (← n.whole?).toNat

/-- The positions of the tip along a path. -/
def tips (path : List (Joints α)) : List (Point α) := path.map Joints.tip

/-- The positions of the tip, for angles that have a sine. -/
def tips? (path : List (Joints α)) : Except (Fault α) (List (Point α)) := path.mapM Joints.tip?

end Trajectory

end ArmRover
