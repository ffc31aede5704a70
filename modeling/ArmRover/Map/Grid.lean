import ArmRover.Value.Number

/-!
# Occupancy grids

A square map of the ground, centred on the origin of the world and divided into square cells. A
cell is unknown until a scan has passed it; it is free when a ray went through and occupied when a
ray ended there, and an occupied cell stays occupied.

* `Cell` — what is known of a cell.
* `Grid` — a map, `Grid.new?` — a map of which nothing is known.
* `Grid.locate` — the cell of a position, `Grid.cellAt?` — what is known of it.
* `Grid.passThrough`, `Grid.endIn` — writing a cell.
-/

namespace ArmRover

-- Whole powers are the core library's, whatever algebra is imported.
attribute [local instance (high)] instPowNat

/-- What is known of a cell. -/
inductive Cell where
  | unknown
  | free
  | occupied
  deriving DecidableEq, Repr

/-- A map of `size * size` cells. Row by row from the smallest `z`, each row from the smallest
`x`. -/
structure Grid (α : Type) where
  /-- The length of a side of the map. -/
  side : Number α
  /-- The number of cells a metre that was asked for. -/
  density : Number α
  size : Nat
  cells : Vector Cell (size * size)

namespace Grid

variable [Scalar α]

/-- The number of cells along a side. -/
def size? (side density : Value α) : Except (Fault α) Int := do
  match ← (← side.product? density).number? with
  | .whole n => return n
  | .real x => Scalar.round? x

/-- The side and the density of a map that has at least one cell. -/
def extent? (side density : Value α) (empty : Fault α) :
    Except (Fault α) (Number α × Number α) := do
  let s ← side.number?
  if s.atMost 0 then throw empty
  let d ← density.number?
  if d.atMost 0 then throw empty
  if (← size? side density) < 1 then throw empty
  return (s, d)

/-- The largest number of cells that can be numbered. -/
def maxCells : Nat := 2 ^ (63 : Nat) - 1

/-- A map of which nothing is known. It has to have at least one cell, and not too many. -/
def new? (side density : Value α) : Except (Fault α) (Grid α) := do
  let (s, d) ← extent? side density (.emptyMap side density)
  let size := (← size? side density).toNat
  if maxCells < size * size then throw .mapTooLarge
  if Value.maxHeld < size * size then throw .outOfMemory
  return ⟨s, d, size, .replicate _ .unknown⟩

/-- The length of a side of a cell. -/
def cellSide (g : Grid α) : α := g.side.quotient g.size

/-- The number of the cell along one axis that holds a coordinate, counted from the corner of the
map. -/
def index (g : Grid α) (x : α) : α := Scalar.ofInt g.size / 2 + x / g.cellSide

/-- The cell that holds a position, inside the map or not. -/
def locate (g : Grid α) (x z : α) : Int × Int :=
  (Scalar.floor (g.index x), Scalar.floor (g.index z))

/-- The cell that holds a position with finite coordinates. -/
def locate? (g : Grid α) (x z : α) : Except (Fault α) (Int × Int) := do
  let gx ← Scalar.floor? (g.index x)
  let gz ← Scalar.floor? (g.index z)
  return (gx, gz)

omit [Scalar α]

/-- Whether a cell lies in the map. -/
def contains (g : Grid α) (gx gz : Int) : Bool :=
  0 ≤ gx && gx < g.size && 0 ≤ gz && gz < g.size

/-- The place of a cell of the map among all cells. -/
def offset (g : Grid α) (gx gz : Int) : Nat := gz.toNat * g.size + gx.toNat

/-- What is known of a cell, if it lies in the map. -/
def cell? (g : Grid α) (gx gz : Int) : Option Cell :=
  if g.contains gx gz then g.cells[g.offset gx gz]? else none

/-- What is known of the cell that holds a position, if it lies in the map. -/
def cellAt? (g : Grid α) (x z : α) : Except (Fault α) (Option Cell) := do
  let (gx, gz) ← g.locate? x z
  return g.cell? gx gz

/-- Write a cell, if it lies in the map. -/
def setCell (g : Grid α) (gx gz : Int) (c : Cell) : Grid α :=
  if g.contains gx gz then { g with cells := g.cells.setIfInBounds (g.offset gx gz) c } else g

/-- A ray went through the cell. -/
def passThrough (g : Grid α) (gx gz : Int) : Grid α :=
  if g.cell? gx gz = some .occupied then g else g.setCell gx gz .free

/-- A ray ended in the cell. -/
def endIn (g : Grid α) (gx gz : Int) : Grid α := g.setCell gx gz .occupied

/-- The number of cells of which the same is known. -/
def count (g : Grid α) (c : Cell) : Nat := g.cells.count c

/-- A row of the map. -/
def row (g : Grid α) (gz : Nat) : List Cell :=
  (List.range g.size).map fun (gx : Nat) => (g.cell? gx gz).getD .unknown

/-- The rows of the map, from the smallest `z`. -/
def rows (g : Grid α) : List (List Cell) := (List.range g.size).map g.row

/-- A cell of the map has a place among all cells. -/
theorem offset_lt {g : Grid α} {gx gz : Int} (h : g.contains gx gz = true) :
    g.offset gx gz < g.size * g.size := by
  simp only [contains, Bool.and_eq_true, decide_eq_true_eq] at h
  obtain ⟨⟨⟨hx0, hx⟩, hz0⟩, hz⟩ := h
  have hx' : gx.toNat < g.size := by omega
  have hz' : gz.toNat + 1 ≤ g.size := by omega
  have := Nat.mul_le_mul_right g.size hz'
  rw [Nat.add_mul] at this
  unfold offset
  omega

end Grid

end ArmRover
