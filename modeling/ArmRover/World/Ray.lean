import ArmRover.World.Obstacle

/-!
# Rays through the world

What a sensor sees of a world of obstacles along one ray, or along rays all around.

* `World.nearest?` — the first obstacle that a ray meets within a range.
* `Sighting` — what a ray tells, `World.cast?` — the sighting along a ray.
* `World.scan?` — readings all around.
-/

namespace ArmRover

/-- The shapes around the robots. -/
abbrev World (α : Type) := List (Obstacle α)

/-- What a ray tells: a hit, or else the range, whatever it is. A distance that comes from elsewhere
is plain as well. -/
inductive Sighting (α : Type) where
  | hit (h : Hit α)
  | plain (distance : Value α)

/-- One reading of a scan. -/
structure Reading (α : Type) where
  angle : α
  distance : Sighting α

variable [Scalar α]

/-- The direction over the ground at an angle about the vertical; 0 is along `z`. -/
def heading (angle : α) : Point α := ⟨Scalar.sin angle, 0, Scalar.cos angle⟩

/-- The direction at an angle that is not infinite. -/
def heading? (angle : α) : Except (Fault α) (Point α) := do
  let (s, c) ← Scalar.sinCos? angle
  return ⟨s, 0, c⟩

/-- Whether a hit is within a range. -/
def Hit.within? (h : Hit α) (range : Value α) : Except (Fault α) Bool :=
  match h.form with
  | .start => range.ask? (·.atLeast h.place)
  | .computed | .listed => range.askComputed? (·.atLeast h.place)

namespace Sighting

omit [Scalar α] in
/-- The distance as plain data. -/
def value : Sighting α → Value α
  | hit ⟨place, .listed⟩ => .list [.real place]
  | hit h => .real h.place
  | plain v => v

/-- Whether the distance is less than a limit. -/
def below? (s : Sighting α) (limit : Value α) : Except (Fault α) Bool :=
  match s with
  | hit ⟨place, .start⟩ => limit.ask? (·.above place)
  | hit h => limit.askComputed? (·.above h.place)
  | plain v => return (← v.number?).less (← limit.number?)

@[simp] theorem below?_plain_real (x limit : α) :
    (plain (.real x)).below? (.real limit) = .ok (decide (x < limit)) := rfl

@[simp] theorem below?_hit_real (h : Hit α) (limit : α) :
    (hit h).below? (.real limit) = .ok (decide (h.place < limit)) := by
  obtain ⟨place, form⟩ := h
  cases form <;> rfl

end Sighting

namespace World

/-- The nearer of two hits, the first unless the second is nearer. -/
def nearer (nearest : Option (Hit α)) (h : Hit α) : Hit α :=
  match nearest with
  | none => h
  | some n => if h.place < n.place then h else n

/-- The nearer of the hit so far and that of an obstacle, which counts if it is within the range.
The range is only looked at when there is a hit. -/
def withObstacle? (ray : Ray α) (range : Value α) (nearest : Option (Hit α)) (o : Obstacle α) :
    Except (Fault α) (Option (Hit α)) := do
  match ← o.shape.hit? ray with
  | none => return nearest
  | some h => if ← h.within? range then return some (nearer nearest h) else return nearest

/-- The hit on the first solid obstacle along a ray, if one is within the range. -/
def nearest? (world : World α) (ray : Ray α) (range : Value α) :
    Except (Fault α) (Option (Hit α)) :=
  (world.filter Obstacle.solid).foldlM (withObstacle? ray range) none

/-- What a ray tells of the world. -/
def cast? (world : World α) (ray : Ray α) (range : Value α) : Except (Fault α) (Sighting α) := do
  match ← world.nearest? ray range with
  | none => return .plain range
  | some h => return .hit h

/-- The angle of ray `i` of `n` rays that are spread evenly, starting along `z`. -/
def rayAngle (n i : Nat) : α := Scalar.ofInt i * (2 * Scalar.pi / Scalar.ofInt n)

/-- Readings along `n` rays all around a point. -/
def around? (world : World α) (origin : Vantage α) (n : Nat) (range : Value α) :
    Except (Fault α) (List (Reading α)) :=
  (List.range n).mapM fun i => do
    let angle := rayAngle n i
    return ⟨angle, ← world.cast? (Ray.along origin (ArmRover.heading angle)) range⟩

/-- Readings all around a point. The number of rays has to be whole, at least 1, and small enough to
divide the circle by. -/
def scan? (world : World α) (origin : Vantage α) (rays range : Value α) :
    Except (Fault α) (List (Reading α)) := do
  let n ← rays.number?
  if n.below 1 then throw (.rayCount rays)
  let _ ← n.scalar?
  world.around? origin (← n.whole?).toNat range

end World

end ArmRover
