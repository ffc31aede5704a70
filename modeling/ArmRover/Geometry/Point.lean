import ArmRover.Scalar.Basic

/-!
# Points

Points and vectors of space: `x` and `z` span the ground and `y` points up.
-/

namespace ArmRover

/-- A point or a vector. -/
structure Point (α : Type) where
  x : α
  y : α
  z : α
  deriving DecidableEq, Repr

namespace Point

variable [Scalar α]

instance : Add (Point α) := ⟨fun p q => ⟨p.x + q.x, p.y + q.y, p.z + q.z⟩⟩
instance : Sub (Point α) := ⟨fun p q => ⟨p.x - q.x, p.y - q.y, p.z - q.z⟩⟩

/-- The scalar product. -/
@[inline] def dot (p q : Point α) : α := p.x * q.x + p.y * q.y + p.z * q.z

/-- The length of a vector. -/
@[inline] def norm (p : Point α) : α := Scalar.sqrt (p.dot p)

/-- The coordinates in order. -/
def toList (p : Point α) : List α := [p.x, p.y, p.z]

/-- The point with the given coordinates, if they are three. -/
def ofList? : List α → Option (Point α)
  | [x, y, z] => some ⟨x, y, z⟩
  | _ => none

/-- The length of a list of coordinates. -/
def length (coordinates : List α) : α :=
  Scalar.sqrt (coordinates.foldl (fun sum c => sum + c * c) 0)

omit [Scalar α] in
@[simp] theorem ofList?_toList (p : Point α) : ofList? p.toList = some p := rfl

end Point

end ArmRover
