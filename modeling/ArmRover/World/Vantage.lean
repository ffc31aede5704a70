import ArmRover.Geometry.Point
import ArmRover.Value.Measure

/-!
# Vantage points and rays

A sensor looks from a point of the ground along a direction. How the coordinates of the point are
held decides what they can be set against: computed numbers against numbers and lists of numbers,
given ones against numbers only, and text only against text.

* `Vantage` — a point to look from, `Ray` — a point and a direction.
* `Vantage.Form.measure?` — a measure that the coordinates are to be computed with.
* `Vantage.Form.above?`, `Vantage.Form.below?` — comparing a measure with a coordinate.
-/

namespace ArmRover

/-- How the coordinates of a vantage point are held. -/
inductive Vantage.Form where
  | computed
  | given
  | text
  deriving DecidableEq, Repr

/-- A point of the ground to look from. -/
structure Vantage (α : Type) where
  x : α
  z : α
  form : Vantage.Form
  deriving DecidableEq, Repr

namespace Vantage

/-- The point of the ground below a point, with computed coordinates. -/
def below (p : Point α) : Vantage α := ⟨p.x, p.z, .computed⟩

/-- A coordinate as text. Only a point at the origin has text for its coordinates. -/
def originText : String := "0.0"

namespace Form

variable [Scalar α]

/-- A measure that coordinates are to be computed with. -/
def measure? (form : Form) (v : Value α) : Except (Fault α) (Measure α) :=
  match form with
  | computed => v.measure?
  | given => return ⟨[], [← v.scalar?]⟩
  | text => .error .wrongKind

/-- A question about a measure that coordinates put: about numbers, or about text. -/
def ask? (form : Form) (question : Number α → Bool) (textual : String → Bool) (v : Value α) :
    Except (Fault α) Bool :=
  match form, v with
  | computed, v => v.askComputed? question
  | given, v => v.ask? question
  | text, .text s => .ok (textual s)
  | text, _ => .error .wrongKind

/-- Whether a measure is above a coordinate. -/
def above? (form : Form) (v : Value α) (coordinate : α) : Except (Fault α) Bool :=
  form.ask? (·.above coordinate) (originText < ·) v

/-- Whether a measure is below a coordinate. -/
def below? (form : Form) (v : Value α) (coordinate : α) : Except (Fault α) Bool :=
  form.ask? (·.below coordinate) (· < originText) v

@[simp] theorem measure?_computed (v : Value α) : computed.measure? v = v.measure? := rfl

@[simp] theorem above?_computed_real (x coordinate : α) :
    computed.above? (.real x) coordinate = .ok (decide (coordinate < x)) := rfl

@[simp] theorem below?_computed_real (x coordinate : α) :
    computed.below? (.real x) coordinate = .ok (decide (x < coordinate)) := rfl

end Form

/-- The position at a distance from the point, along a ray with the given sine and cosine. -/
def along? [Scalar α] (p : Vantage α) (sin cos distance : α) : Except (Fault α) (α × α) :=
  if p.form = .text then .error .wrongKind
  else .ok (p.x + sin * distance, p.z + cos * distance)

end Vantage

/-- A ray over the ground, along `(dx, dz)`. -/
structure Ray (α : Type) where
  origin : Vantage α
  dx : α
  dz : α
  deriving DecidableEq, Repr

/-- The ray from a vantage point along a direction, seen from above. -/
def Ray.along (origin : Vantage α) (direction : Point α) : Ray α :=
  ⟨origin, direction.x, direction.z⟩

end ArmRover
