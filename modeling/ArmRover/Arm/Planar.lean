import ArmRover.Arm.Forward

/-!
# The arm in its plane

Shoulder, elbow and wrist move the hand in one vertical plane. Positions in that plane are taken
from the shoulder pivot: `reach` outwards and `height` upwards.

* `Planar.tip` — where the tip is.
* `elbowBend` — the bend of two links that span a distance.
* `level?`, `stretched`, `sweep` — three ways to bring the tip to a position: with the hand held
  level, with the wrist held straight, and with the hand in given directions.
* `swept` — the best of many hand directions.
-/

namespace ArmRover

/-- The angles of shoulder, elbow and wrist, in degrees. -/
structure Planar (α : Type) where
  shoulder : α
  elbow : α
  wrist : α
  deriving DecidableEq, Repr

/-- A position in the plane of the arm. -/
structure Spot (α : Type) where
  reach : α
  height : α
  deriving DecidableEq, Repr

namespace Spot

/-- The distance between two positions. -/
@[inline] def distance [Scalar α] (p q : Spot α) : α :=
  Scalar.hypot (p.reach - q.reach) (p.height - q.height)

end Spot

namespace Planar

variable [Scalar α]

open Arm

/-- The angles, given in radians. -/
@[inline] def ofRadians (shoulder elbow wrist : α) : Planar α :=
  ⟨Scalar.degrees shoulder, Scalar.degrees elbow, Scalar.degrees wrist⟩

/-- Where the tip is. -/
@[specialize] def tip (p : Planar α) : Spot α :=
  let s := Scalar.radians p.shoulder
  let se := s + Scalar.radians p.elbow
  let sew := se + Scalar.radians p.wrist
  ⟨upperArm * Scalar.sin s + forearm * Scalar.sin se + handSpan * Scalar.sin sew,
   upperArm * Scalar.cos s + forearm * Scalar.cos se + handSpan * Scalar.cos sew⟩

/-- Every angle brought into the range of its joint. -/
@[specialize] def clamp (p : Planar α) : Planar α :=
  ⟨Joint.shoulder.clamp p.shoulder, Joint.elbow.clamp p.elbow, Joint.wrist.clamp p.wrist⟩

/-- Whether every angle lies in the range of its joint. -/
def within (p : Planar α) : Bool :=
  Joint.shoulder.within p.shoulder && Joint.elbow.within p.elbow && Joint.wrist.within p.wrist

end Planar

namespace Arm

variable [Scalar α]

/-! ### Two links -/

/-- The cosine of the bend of two links that span a distance, by the law of cosines. Outside
`[-1, 1]` the distance cannot be spanned. -/
@[inline] def bendCosine (distance l1 l2 : α) : α :=
  (distance * distance - l1 * l1 - l2 * l2) / (2 * l1 * l2)

/-- The bend, in radians, of two links that span a distance: 0 is straight. A distance out of
reach gives a stretched or a folded elbow. -/
@[specialize] def elbowBend (distance l1 l2 : α) : α :=
  Scalar.acos (Scalar.greater (-1) (Scalar.lesser 1 (bendCosine distance l1 l2)))

/-- The bend, for links whose lengths have a product. -/
def elbowBend? (distance l1 l2 : α) : Except (Fault α) α :=
  if 2 * l1 * l2 == 0 then .error .divisionByZero else .ok (elbowBend distance l1 l2)

/-- The shoulder angle, in radians, that points two links with a given bend at a position. -/
@[inline] def shoulderAngle (spot : Spot α) (bend l1 l2 : α) : α :=
  Scalar.atan2 spot.reach spot.height
    - Scalar.atan2 (l2 * Scalar.sin bend) (l1 + l2 * Scalar.cos bend)

/-! ### Three ways to a position -/

/-- The angles for a hand held level, with a given bend of the elbow. -/
@[specialize] def levelWith (wrist : Spot α) (bend : α) : Planar α :=
  let shoulder := shoulderAngle wrist bend upperArm forearm
  Planar.ofRadians shoulder bend (Scalar.pi / 2 - shoulder - bend)

/-- The angles that bring the tip to a position with the hand held level: with the elbow up if
the limits allow it, else with the elbow down. -/
@[specialize] def level? (spot : Spot α) : Option (Planar α) :=
  let wrist : Spot α := ⟨spot.reach - handSpan, spot.height⟩
  let cosine := bendCosine (Scalar.hypot wrist.reach wrist.height) upperArm forearm
  if 1 < Scalar.abs cosine then none
  else
    let bend := Scalar.acos cosine
    let up := levelWith wrist bend
    let down := levelWith wrist (-bend)
    if up.within then some up
    else if down.within then some down
    else none

/-- The angles that point the arm at a position with the wrist held straight. -/
@[specialize] def stretched (spot : Spot α) : Planar α :=
  let outer := forearm + handSpan
  let bend := elbowBend (Scalar.hypot spot.reach spot.height) upperArm outer
  Planar.ofRadians (shoulderAngle spot bend upperArm outer) bend 0

/-- An angle in degrees, brought into `[-180, 180)` by full turns. -/
@[inline] def wrap (angle : α) : α := Scalar.remainder (angle + 180) 360 - 180

/-- The angles for a hand direction, in radians from the vertical, with the elbow bent to the side
of `sign`: the wrist point is fixed by the hand, a distance that the two links cannot span is
clamped, and every angle is wrapped and brought into its range. -/
@[specialize] def handed (spot : Spot α) (sign hand : α) : Planar α :=
  let wrist : Spot α :=
    ⟨spot.reach - handSpan * Scalar.sin hand, spot.height - handSpan * Scalar.cos hand⟩
  let cosine := bendCosine (Scalar.hypot wrist.reach wrist.height) upperArm forearm
  let bend := sign * Scalar.acos (Scalar.clamp cosine (-1) 1)
  let shoulder := shoulderAngle wrist bend upperArm forearm
  let p := Planar.ofRadians shoulder bend (hand - shoulder - bend)
  Planar.clamp ⟨wrap p.shoulder, wrap p.elbow, wrap p.wrist⟩

/-- The angles for each of the hand directions, with the distance by which the tip misses the
position. -/
@[specialize] def sweep (spot : Spot α) (hands : List α) (sign : α) : List (Planar α × α) :=
  hands.map fun hand =>
    let p := handed spot sign hand
    (p, p.tip.distance spot)

/-! ### Sweeping for the best hand direction -/

/-- The numbers from `start` in steps, as many as fit below `stop`. -/
@[specialize] def steps (start stop step : α) : List α :=
  let stride := (start + step) - start
  (List.range (Scalar.ceil ((stop - start) / step)).toNat).map fun (i : Nat) =>
    start + Scalar.ofInt i * stride

/-- A solution found by sweeping: the hand direction in degrees, the angles, and the miss. -/
structure Candidate (α : Type) where
  hand : α
  planar : Planar α
  miss : α

/-- The candidate with the smaller miss, the first unless the second is strictly better. -/
@[inline] def Candidate.better (best : Option (Candidate α)) (c : Candidate α) :
    Option (Candidate α) :=
  match best with
  | none => if Scalar.belowInfinity c.miss then some c else none
  | some b => if c.miss < b.miss then some c else best

/-- The best of the hand directions `start`, `start + step`, … with the elbow bent to one side. -/
@[specialize] def bestHanded (spot : Spot α) (hands : List α) (sign : α)
    (best : Option (Candidate α)) : Option (Candidate α) :=
  hands.foldl (fun best hand =>
    let p := handed spot sign (Scalar.radians hand)
    Candidate.better best ⟨hand, p, p.tip.distance spot⟩) best

/-- The best of the hand directions about `center`, in steps, out to `span` on either side and
with the elbow bent to either side. -/
@[specialize] def bestAround (spot : Spot α) (center span step : α)
    (best : Option (Candidate α)) : Option (Candidate α) :=
  let hands := steps (center - span) (center + span + step / 2) step
  bestHanded spot hands (-1) (bestHanded spot hands 1 best)

/-- The best of all hand directions: first in coarse steps all around, then in fine steps about
the best of those. -/
@[specialize] def swept? (spot : Spot α) : Option (Planar α) :=
  let coarse := bestAround spot 0 180 0.1 none
  let center := (coarse.map Candidate.hand).getD 0
  (bestAround spot center 0.1 0.002 coarse).map Candidate.planar

end Arm

end ArmRover
