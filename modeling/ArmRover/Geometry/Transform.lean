import ArmRover.Geometry.Point

/-!
# Rigid transforms

A turn followed by a shift, as the upper three rows of a homogeneous matrix.

* `Transform.turnY`, `Transform.turnZ`, `Transform.lift` — turns about two axes and shifts along
  the vertical.
* `Transform.comp` — the product, the right factor acting first.
-/

namespace ArmRover

/-- A turn, by the rows of its matrix, and a shift. -/
structure Transform (α : Type) where
  rowX : Point α
  rowY : Point α
  rowZ : Point α
  shift : Point α
  deriving DecidableEq, Repr

namespace Transform

variable [Scalar α]

/-- The turn by an angle about the vertical axis. -/
def turnY (angle : α) : Transform α :=
  let c := Scalar.cos angle
  let s := Scalar.sin angle
  ⟨⟨c, 0, s⟩, ⟨0, 1, 0⟩, ⟨-s, 0, c⟩, ⟨0, 0, 0⟩⟩

/-- The turn by an angle about the `z` axis. -/
def turnZ (angle : α) : Transform α :=
  let c := Scalar.cos angle
  let s := Scalar.sin angle
  ⟨⟨c, -s, 0⟩, ⟨s, c, 0⟩, ⟨0, 0, 1⟩, ⟨0, 0, 0⟩⟩

/-- The shift by a height. -/
def lift (height : α) : Transform α :=
  ⟨⟨1, 0, 0⟩, ⟨0, 1, 0⟩, ⟨0, 0, 1⟩, ⟨0, height, 0⟩⟩

/-- The image of a vector under the turn alone. -/
def turned (t : Transform α) (v : Point α) : Point α :=
  ⟨t.rowX.dot v, t.rowY.dot v, t.rowZ.dot v⟩

/-- A row times the turn of a transform. -/
def rowTimes (row : Point α) (t : Transform α) : Point α :=
  ⟨row.x * t.rowX.x + row.y * t.rowY.x + row.z * t.rowZ.x,
   row.x * t.rowX.y + row.y * t.rowY.y + row.z * t.rowZ.y,
   row.x * t.rowX.z + row.y * t.rowY.z + row.z * t.rowZ.z⟩

/-- The transform that applies `t` first and `s` after it. -/
def comp (s t : Transform α) : Transform α :=
  ⟨rowTimes s.rowX t, rowTimes s.rowY t, rowTimes s.rowZ t, s.turned t.shift + s.shift⟩

end Transform

end ArmRover
