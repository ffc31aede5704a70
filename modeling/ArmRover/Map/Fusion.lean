import ArmRover.Map.Grid
import ArmRover.World.Ray

/-!
# Fusing scans into a map

Each reading of a scan marks the cells along its ray free, at steps of one cell, up to the reading,
and the cell at the reading occupied unless the reading is close to the range of the sensor.

* `Grid.fuseReading`, `Grid.fuse` — one reading, and all readings of a scan.
* `Grid.prepare` — a map of a given size, made anew when it is missing or of another size.
* `Grid.fuseInto` — a scan fused into such a map.
-/

namespace ArmRover.Grid

variable [Scalar α]

/-- Mark the cell at a distance from the origin of a scan, along a ray with the given sine and
cosine. -/
def markAt (mark : Grid α → Int → Int → Grid α) (origin : Vantage α) (sin cos distance : α) :
    Action α (Grid α) Unit := do
  let (x, z) ← Action.lift (origin.along? sin cos distance)
  let (gx, gz) ← Action.lift ((← get).locate? x z)
  modify fun g => mark g gx gz

/-- Fuse one reading. A reading of less than the limit is a hit; the limit is only asked for after
the cells along the ray are marked. -/
def fuseReading (origin : Vantage α) (limit : Except (Fault α) (Value α)) (p : Reading α) :
    Action α (Grid α) Unit := do
  let (sin, cos) ← Action.lift (Scalar.sinCos? p.angle)
  let cellSide := (← get).cellSide
  let distance ← Action.lift p.distance.value.scalar?
  let steps ← Action.lift (Scalar.floor? (distance / cellSide))
  Action.upTo steps.toNat fun step =>
    markAt passThrough origin sin cos (Scalar.ofInt step * cellSide)
  if ← Action.lift (p.distance.below? (← Action.lift limit)) then
    markAt endIn origin sin cos distance

/-- Fuse the readings of a scan, taken at `origin` by a sensor of the given range. Readings of at
least `ratio` of the range are misses. -/
def fuse (scan : List (Reading α)) (origin : Vantage α) (range ratio : Value α) :
    Action α (Grid α) Unit :=
  Action.each scan (fuseReading origin (range.product? ratio))

/-- Whether there is a map with so many cells along a side. -/
def hasSize (map : Option (Grid α)) (size : Int) : Bool :=
  match map with
  | some g => g.size == size
  | none => false

/-- Have a map with the given side and density. A map of that size stays as it is; otherwise a new
one takes its place. -/
def prepare (side density : Value α) : Action α (Option (Grid α)) Unit := do
  let size ← Action.lift (size? side density)
  if !hasSize (← get) size then
    set (some (← Action.lift (new? side density)))

/-- Fuse a scan into the map, if there is one. -/
def fuseIfAny (scan : List (Reading α)) (origin : Vantage α) (range ratio : Value α) :
    Action α (Option (Grid α)) Unit := do
  match ← get with
  | none => pure ()
  | some g => Action.on (fun _ => g) (fun _ g => some g) (fuse scan origin range ratio)

/-- Fuse a scan into a map with the given side and density. -/
def fuseInto (scan : List (Reading α)) (origin : Vantage α)
    (side density range ratio : Value α) : Action α (Option (Grid α)) Unit := do
  prepare side density
  fuseIfAny scan origin range ratio

end ArmRover.Grid
