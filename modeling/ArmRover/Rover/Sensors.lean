import ArmRover.Station.Basic

/-!
# Sensors of the rover

A distance sensor looks straight ahead, and a lidar all around; the scans of the lidar are fused
into the map. Each of the two is refreshed at most once in its interval.

* `Sensors.lookAhead` — the distance sensor alone.
* `Sensors.refresh` — whatever is due.
-/

namespace ArmRover.Sensors

variable [Scalar α]

/-- Whether a sensor that was last refreshed at `last` is still fresh, before the end of an
interval. The interval only matters after the first refresh. -/
def fresh? (last : Option α) (now : α) (interval : Value α) : Except (Fault α) Bool := do
  match last with
  | none => return false
  | some last => return (← interval.number?).above (now - last)

/-- The reading of the distance sensor, refreshed if it is due. -/
def lookAhead (senses : Settings.Senses α) (world : World α) (now : α) :
    Action α (Station α) (Value α) := do
  let s ← get
  if ← Action.lift (fresh? s.gates.distance now (.real senses.interval)) then
    return s.rover.distance
  modify fun s => { s with gates := { s.gates with distance := some now } }
  let direction ← Action.lift (heading? s.rover.heading)
  let sighting ← Action.lift (world.cast? (Ray.along s.rover.ground direction) senses.range)
  let reading ← Action.lift sighting.value.numeric?
  modify fun s => s.setReading reading
  return sighting.value

/-- Scan all around and fuse the scan into the map. -/
def scanAround (senses : Settings.Senses α) (mapping : Settings.Mapping α) (world : World α) :
    Action α (Station α) Unit := do
  let ground := (← get).rover.ground
  let scan ← Action.lift (world.scan? ground (.number senses.rays) senses.range)
  modify fun s => { s with rover := { s.rover with scan } }
  Action.on Station.map (fun s map => { s with map })
    (Grid.fuseInto scan ground (.number mapping.side) (.number mapping.density) senses.range
      mapping.hitRatio)

/-- Refresh the sensors that are due, if the rover is active. -/
def refresh (senses : Settings.Senses α) (mapping : Settings.Mapping α) (world : World α)
    (now : α) : Action α (Station α) Unit := do
  if (← get).active ≠ .rover then return
  let _ ← lookAhead senses world now
  if ← Action.lift (fresh? (← get).gates.scan now senses.scanInterval) then return
  modify fun s => { s with gates := { s.gates with scan := some now } }
  scanAround senses mapping world

/-- Make the next refresh of either sensor due. -/
def reset (s : Station α) : Station α := { s with gates := .open }

end ArmRover.Sensors
