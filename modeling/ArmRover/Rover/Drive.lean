import ArmRover.Station.Basic

/-!
# Driving the rover

What happens to the rover while time passes: a stale command stops it, friction slows it down, and
what velocity is left moves it.

* `Drive.Decay` — what friction leaves of a velocity.
* `Drive.advance` — one stretch of time.
-/

namespace ArmRover.Drive

variable [Scalar α]

/-- What friction leaves of a velocity: a factor, or, for a negative friction to a power that is
not whole, a complex factor by its real and its imaginary part. -/
inductive Decay (α : Type) where
  | factor (d : α)
  | complex (re im : α)

/-- Whether the number is whole. -/
def isWhole (x : α) : Bool := x == Scalar.ofInt (Scalar.floor x)

/-- Whether the number is neither infinite nor missing. -/
def isFinite (x : α) : Bool := !Scalar.isNaN x && !Scalar.isInfinite x

/-- The power of a friction coefficient. -/
def power? (friction exponent : α) : Except (Fault α) (Decay α) :=
  let finite := isFinite friction && isFinite exponent
  if finite && friction == 0 && decide (exponent < 0) then .error .divisionByZero
  else if finite && decide (friction < 0) && !isWhole exponent then
    let size := Scalar.pow (-friction) exponent
    let turn := Scalar.pi * exponent
    if Scalar.isInfinite size then .error .tooLarge
    else .ok (.complex (size * Scalar.cos turn) (size * Scalar.sin turn))
  else
    let power := Scalar.pow friction exponent
    if finite && Scalar.isInfinite power then .error .tooLarge else .ok (.factor power)

/-- What friction leaves of a velocity after a stretch of time. -/
def decay? (driving : Settings.Driving α) (dt : α) : Except (Fault α) (Decay α) := do
  let exponent := dt * (← driving.frictionRate.scalar?)
  power? (← driving.friction.scalar?) exponent

/-- Whether a speed is below the least one, which makes it zero. -/
def stalled? (driving : Settings.Driving α) (speed : α) : Except (Fault α) Bool := do
  return (← driving.leastSpeed.number?).above speed

/-- The magnitude of a velocity times a complex factor. Finite parts have a finite magnitude. -/
def complexSpeed? (v re im : α) : Except (Fault α) α :=
  let x := v * re
  let y := v * im
  let size := Scalar.hypot x y
  if isFinite x && isFinite y && Scalar.isInfinite size then .error .tooLarge else .ok size

/-- The velocities after friction, before they are limited again. A complex velocity that is not
stalled is no velocity. -/
def slowed? (driving : Settings.Driving α) (dt : α) (vx wz : Number α) :
    Action α (Station α) (α × α) := do
  let decay ← Action.lift (decay? driving dt)
  let vx ← Action.lift vx.scalar?
  let wz ← Action.lift wz.scalar?
  match decay with
  | .factor d =>
    let floored (v : α) := return if ← stalled? driving (Scalar.abs v) then 0 else v
    let vx ← Action.lift (floored (vx * d))
    let wz ← Action.lift (floored (wz * d))
    Station.setVelocities driving vx wz none
    return (vx, wz)
  | .complex re im =>
    let stopped (v : α) := do stalled? driving (← complexSpeed? v re im)
    let vxStopped ← Action.lift (stopped vx)
    let wzStopped ← Action.lift (stopped wz)
    if !vxStopped then throw .wrongKind
    let vx ← Action.lift (Station.limited? driving.maxLinear 0)
    modify fun s => { s with rover := { s.rover with vx } }
    if !wzStopped then throw .wrongKind
    Station.setVelocities driving 0 0 none
    return (0, 0)

/-- Whether the last velocity command is older than the watchdog allows. -/
def stale? (driving : Settings.Driving α) (r : Rover α) (now : α) : Except (Fault α) Bool := do
  match r.lastCommand with
  | none => return false
  | some last => return (← driving.watchdog.number?).below (now - last)

/-- Whether either velocity is not zero. -/
def moving (vx wz : Number α) : Bool := !vx.isZero || !wz.isZero

/-- The height of a rover that moves. One that was left out is not a number. -/
def height? : Value α → Except (Fault α) α
  | .null => .ok (0 / 0)
  | v => v.scalar?

/-- Move the rover by its velocities for a stretch of time. The heading at its start gives the
direction. -/
def displace (vx wz dt : α) : Action α (Station α) Unit := do
  let r := (← get).rover
  if !(wz == 0) then modify fun s => s.turnTo (r.heading + wz * dt)
  if !(vx == 0) then
    let (sin, cos) ← Action.lift (Scalar.sinCos? r.heading)
    if Rover.form r.height = .text then throw .wrongKind
    let height ← Action.lift (height? r.height)
    modify fun s => s.moveTo ⟨r.x + vx * sin * dt, height, r.z + vx * cos * dt⟩

/-- Let a stretch of time pass for the rover, if it is active: watchdog, friction, heading,
position, telemetry. -/
def advance (driving : Settings.Driving α) (dt now : α) : Action α (Station α) Unit := do
  let s ← get
  if s.active ≠ .rover then return
  let stale ← Action.lift (stale? driving s.rover now)
  if stale then Station.setVelocities driving 0 0 none
  let vx := if stale then .real 0 else s.rover.vx
  let wz := if stale then .real 0 else s.rover.wz
  let (vx, wz) ← if moving vx wz then slowed? driving dt vx wz else pure (0, 0)
  displace vx wz dt
  Station.addSample now driving.historyTime

end ArmRover.Drive
