import ArmRover.Value.Basic
import ArmRover.Scalar.Basic

/-!
# Faults

The causes for which an operation of the library gives up. A fault is a value; where the library
has something to say about it, `Fault.message` in `ArmRover.Fault.Message` says it.

* `Fault` — the causes.
* `Action` — a computation over a state that may end in a fault and keeps what it has done by
  then.
* `Scalar.floor?`, `Scalar.round?`, `Scalar.sinCos?` and others — arithmetic that gives up where no
  finite answer exists.
-/

namespace ArmRover

/-- The causes of failure. -/
inductive Fault (α : Type) where
  /-- A configuration of the arm that does not have five angles. -/
  | jointCount (found : Nat)
  /-- A vector with the wrong number of coordinates. -/
  | coordinateCount
  /-- A joint that the arm does not have. -/
  | noSuchJoint
  /-- A trajectory of fewer than one segment. -/
  | segmentCount (n : Value α)
  /-- A scan of fewer than one ray. -/
  | rayCount (n : Value α)
  /-- A lidar of fewer than one ray. -/
  | lidarRayCount (n : Value α)
  /-- A map without cells, as the settings ask for. -/
  | mapSettings
  /-- A map without cells. -/
  | emptyMap (side density : Value α)
  /-- A map with more cells than can be numbered. -/
  | mapTooLarge
  /-- More cells or items than can be held at once. -/
  | outOfMemory
  /-- A sensor that is never refreshed. -/
  | updateRate (rate : Value α)
  /-- An obstacle of an unknown shape. -/
  | unknownShape (shape : Value α)
  /-- An entry that has to be there and is not. -/
  | missing (key : String)
  /-- A command that no rule carries out. -/
  | noHandler (kind : String)
  /-- A program while another one runs. -/
  | alreadyRunning
  /-- Another robot while a program runs. -/
  | robotLocked
  /-- A request that needs a program where there is none. -/
  | noProgram
  /-- A fault that was told before. -/
  | toldBefore (fault : Fault α)
  /-- A program that is not done in the time allowed. -/
  | timedOut (limit : α)
  /-- A name that does not select a robot. -/
  | unknownRobot
  /-- A value of the wrong kind. -/
  | wrongKind
  /-- A list in the place of a number that does not hold exactly one number. -/
  | notSingle
  /-- Text that has to write a number and does not. -/
  | notNumeric
  /-- A mapping that is something else. -/
  | notAMapping
  /-- A whole number of more digits than are read. -/
  | tooManyDigits
  /-- The sine or cosine of an infinite angle. -/
  | infiniteAngle
  /-- A whole number from one that is not a number. -/
  | wholeOfNaN
  /-- A whole number from infinity. -/
  | wholeOfInfinity
  /-- A result too large for the type of numbers. -/
  | tooLarge
  | divisionByZero
  /-- A file that cannot be opened. -/
  | noSuchFile
  /-- The number of frames granted to a run was used up. -/
  | outOfFrames

/-- The fault when it is told another time. -/
def Fault.again : Fault α → Fault α
  | toldBefore fault => toldBefore fault
  | fault => toldBefore fault

/-- A computation over a state. When it ends in a fault, the state is as it left it. -/
abbrev Action (α σ β : Type) := EStateM (Fault α) σ β

namespace Action

/-- Take the answer or the fault of a computation that has no state. -/
def lift (answer : Except (Fault α) β) : Action α σ β :=
  match answer with
  | .ok b => pure b
  | .error fault => throw fault

/-- Run a computation on a part of the state. -/
def on (part : σ → τ) (replace : σ → τ → σ) (action : Action α τ β) : Action α σ β := fun s =>
  match action (part s) with
  | .ok b t => .ok b (replace s t)
  | .error fault t => .error fault (replace s t)

/-- Do something for each item of a list, in order. -/
def each (items : List β) (act : β → Action α σ Unit) : Action α σ Unit :=
  match items with
  | [] => pure ()
  | b :: rest => do
    act b
    each rest act

/-- Do something for `0`, `1`, … up to but not including `n`, in order. -/
def upTo (n : Nat) (act : Nat → Action α σ Unit) : Action α σ Unit :=
  each (List.range n) act

end Action

namespace Scalar

variable [Scalar α]

/-- A number that is not infinite. -/
def finite? (x : α) : Except (Fault α) α := if isInfinite x then .error .tooLarge else .ok x

/-- The greatest whole number that is not above `x`. -/
def floor? (x : α) : Except (Fault α) Int :=
  if isNaN x then .error .wholeOfNaN
  else if isInfinite x then .error .wholeOfInfinity
  else .ok (floor x)

/-- The nearest whole number; a half goes to the even neighbour. -/
def round? (x : α) : Except (Fault α) Int :=
  if isNaN x then .error .wholeOfNaN
  else if isInfinite x then .error .wholeOfInfinity
  else .ok (round x)

/-- The sine and the cosine of an angle that is not infinite. -/
def sinCos? (x : α) : Except (Fault α) (α × α) :=
  if isInfinite x then .error .infiniteAngle else .ok (sin x, cos x)

/-- The quotient by a number that is not zero. -/
def divide? (x y : α) : Except (Fault α) α :=
  if y == 0 then .error .divisionByZero else .ok (x / y)

/-- The square of `x`, unless it is too large. -/
def square? (x : α) : Except (Fault α) α :=
  let xx := square x
  if isInfinite xx && !isInfinite x then .error .tooLarge else .ok xx

end Scalar

end ArmRover
