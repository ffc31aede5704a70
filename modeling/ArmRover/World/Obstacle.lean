import ArmRover.World.Vantage

/-!
# Obstacles

Shapes on the ground that rise without limit: boxes along the axes, and circles. A ray meets a
shape where it first enters it, at the start if it starts inside. The measures of a shape are plain
data, and each is looked at only when a ray comes so far that it matters.

* `Hit` — where a ray meets a shape.
* `Shape.hit?` — the hit of a ray on a shape, if there is one.
* `Obstacle` — a shape with a tag; only shapes tagged as obstacles stop a ray.
-/

namespace ArmRover

/-- Where a hit comes from: the start of the ray, a computation with numbers, or one with a list. -/
inductive Hit.Form where
  | start
  | computed
  | listed
  deriving DecidableEq, Repr

/-- Where a ray meets a shape, as a multiple of its direction. -/
structure Hit (α : Type) where
  place : α
  form : Hit.Form
  deriving DecidableEq, Repr

/-- The shapes, with measures of type `β`. -/
inductive Shape (β : Type) where
  | box (xMin xMax zMin zMax : β)
  | circle (x z radius : β)
  deriving DecidableEq, Repr

variable [Scalar α]

namespace Hit

/-- The start of a ray. -/
def start : Hit α := ⟨0, .start⟩

/-- Where a coordinate that starts at `origin` and moves by `direction` comes to a measure. -/
def crossing? (origin direction : α) (m : Measure α) : Except (Fault α) (Hit α) := do
  return ⟨((← m.only?) - origin) / direction, if m.listed then .listed else .computed⟩

end Hit

namespace Shape

/-! ### Boxes -/

/-- The part of a ray from a first hit to the parameter `far`, or without end. -/
structure Stretch (α : Type) where
  near : Hit α
  far : Option α
  deriving DecidableEq, Repr

namespace Stretch

/-- A whole ray. -/
def whole : Stretch α := ⟨.start, none⟩

/-- Whether a ray counts as parallel to the bounds of a coordinate in which it moves by
`direction`. -/
def parallel (direction : α) : Bool := Scalar.abs direction < 1e-12

/-- The part of a stretch between the two places where a coordinate comes to its bounds, if there is
one. -/
def crossing (s : Stretch α) (atLower atUpper : Hit α) : Option (Stretch α) :=
  let (enter, leave) := if atUpper.place < atLower.place then (atUpper, atLower)
    else (atLower, atUpper)
  let near := if s.near.place < enter.place then enter else s.near
  let far := match s.far with
    | none => if Scalar.belowInfinity leave.place then some leave.place else none
    | some far => some (Scalar.lesser far leave.place)
  if far.any fun far => far < near.place then none else some ⟨near, far⟩

/-- The part of a stretch in which one coordinate lies between `lower` and `upper`, if there is
one. A coordinate that does not change lies there all along or not at all. -/
def between? (s : Stretch α) (form : Vantage.Form) (origin direction : α) (lower upper : Value α) :
    Except (Fault α) (Option (Stretch α)) := do
  if parallel direction then
    if ← form.above? lower origin then return none
    if ← form.below? upper origin then return none
    return some s
  else
    let lower ← form.measure? lower
    let upper ← form.measure? upper
    return s.crossing (← Hit.crossing? origin direction lower)
      (← Hit.crossing? origin direction upper)

end Stretch

/-- Where a ray meets a box: the near end of the stretch that lies between both pairs of sides. -/
def boxHit? (ray : Ray α) (xMin xMax zMin zMax : Value α) : Except (Fault α) (Option (Hit α)) := do
  let p := ray.origin
  match ← Stretch.whole.between? p.form p.x ray.dx xMin xMax with
  | none => return none
  | some s => return (← s.between? p.form p.z ray.dz zMin zMax).map Stretch.near

/-! ### Circles -/

/-- The roots of the quadratic in the parameter where a ray crosses a circle of which the radius is
given by its square, the smaller one first. -/
def circleCrossings (ray : Ray α) (x z squaredRadius : α) : Option (α × α) :=
  let fx := ray.origin.x - x
  let fz := ray.origin.z - z
  let a := ray.dx * ray.dx + ray.dz * ray.dz
  let b := 2 * (fx * ray.dx + fz * ray.dz)
  let c := fx * fx + fz * fz - squaredRadius
  let discriminant := b * b - 4 * a * c
  if a == 0 || decide (discriminant < 0) then none
  else
    let root := Scalar.sqrt discriminant
    some ((-b - root) / (2 * a), (-b + root) / (2 * a))

/-- Where a ray first meets what it crosses from `enter` to `leave`: at the start of the ray when
that lies between the two. -/
def firstOf (crossings : Option (α × α)) : Option (Hit α) :=
  match crossings with
  | none => none
  | some (enter, leave) =>
    if leave < 0 then none else some (if enter < 0 then .start else ⟨enter, .computed⟩)

/-- Whether a direction has no length over the ground. -/
def Ray.vertical (ray : Ray α) : Bool := ray.dx * ray.dx + ray.dz * ray.dz == 0

/-- Where a ray meets a circle. A centre that is given in lists is of no use to a ray that meets it:
only numbers have roots. -/
def circleHit? (ray : Ray α) (x z radius : Value α) : Except (Fault α) (Option (Hit α)) := do
  let x ← ray.origin.form.measure? x
  let z ← ray.origin.form.measure? z
  if !x.agrees z then throw .notSingle
  let squaredRadius ← (← radius.number?).square?
  if Ray.vertical ray then return none
  let crossings := circleCrossings ray (← x.only?) (← z.only?) squaredRadius
  if crossings.isSome && (x.listed || z.listed) then throw .wrongKind
  return firstOf crossings

/-! ### Shapes -/

/-- Where a ray meets a shape. -/
def hit? (ray : Ray α) : Shape (Value α) → Except (Fault α) (Option (Hit α))
  | box xMin xMax zMin zMax => boxHit? ray xMin xMax zMin zMax
  | circle x z radius => circleHit? ray x z radius

end Shape

/-- A shape in the world. -/
structure Obstacle (α : Type) where
  shape : Shape (Value α)
  tag : Value α

namespace Obstacle

/-- The tag of the shapes that stop a ray. -/
def solidTag : String := "obstacle"

omit [Scalar α] in
/-- Whether the shape stops a ray. -/
def solid (o : Obstacle α) : Bool :=
  match o.tag with
  | .text tag => tag == solidTag
  | _ => false

end Obstacle

end ArmRover
