import ArmRover.Proofs.Station.Gates

/-!
# What the distance sensor stores

The distance that the rover has stored is not told apart from one that the sensor has measured. A
refresh of the sensors leaves it alone while the sensor is fresh, and otherwise stores what a look
straight ahead tells from where the rover stands.

* `Sensors.ahead?` — a look straight ahead, `Sensors.Measured` — a distance that it tells.
* `Station.outlook` — where the rover stands, what it has stored, and when its sensor looked last.
* `Sensors.outlook_of_refresh` — a refresh.
-/

namespace ArmRover

variable {α : Type} [Scalar α]

open ArmRover.Action

/-- Where the rover stands and looks, the distance that it has stored, and when its sensor looked
last. -/
def Station.outlook (s : Station α) : (Vantage α × α) × Value α × Option α :=
  ((s.rover.ground, s.rover.heading), s.rover.distance, s.gates.distance)

namespace Sensors

variable {senses : Settings.Senses α} {mapping : Settings.Mapping α} {world : World α} {now : α}
  {s t : Station α}

/-- What a look straight ahead tells from where the rover stands. -/
def ahead? (senses : Settings.Senses α) (world : World α) (rover : Rover α) :
    Except (Fault α) (Value α) := do
  let direction ← heading? rover.heading
  return (← world.cast? (Ray.along rover.ground direction) senses.range).value

/-- A distance is the number that a look straight ahead tells from where the rover stands. -/
def Measured (senses : Settings.Senses α) (world : World α) (rover : Rover α)
    (distance : Value α) : Prop :=
  ∃ v d, ahead? senses world rover = .ok v ∧ v.numeric? = .ok d ∧ distance = .real d

/-- A measurement depends on where the rover stands and looks, and on nothing else of it. -/
theorem Measured.congr {rover rover' : Rover α} {distance : Value α}
    (h : Measured senses world rover distance)
    (hplace : (rover'.ground, rover'.heading) = (rover.ground, rover.heading)) :
    Measured senses world rover' distance := by
  obtain ⟨hground, hheading⟩ := Prod.mk.inj hplace
  unfold Measured ahead? at h ⊢
  rw [hground, hheading]
  exact h

theorem of_lookAhead {reading : Value α} (h : lookAhead senses world now s = .ok reading t) :
    (fresh? s.gates.distance now (.real senses.interval) = .ok true ∧ t = s) ∨
      (fresh? s.gates.distance now (.real senses.interval) = .ok false ∧
        t.gates.distance = some now ∧ Measured senses world t.rover t.rover.distance) := by
  unfold lookAhead at h
  rw [run_get_bind] at h
  obtain ⟨fresh, s', hrun, h⟩ := exists_of_bind_eq_ok h
  obtain ⟨hfresh, rfl⟩ := of_lift_eq_ok hrun
  cases fresh with
  | true =>
    cases h
    exact .inl ⟨hfresh, rfl⟩
  | false =>
    right
    obtain ⟨_, s', ⟨⟩, h⟩ := exists_of_bind_eq_ok h
    obtain ⟨direction, s', hrun, h⟩ := exists_of_bind_eq_ok h
    obtain ⟨hdirection, rfl⟩ := of_lift_eq_ok hrun
    obtain ⟨sighting, s', hrun, h⟩ := exists_of_bind_eq_ok h
    obtain ⟨hsighting, rfl⟩ := of_lift_eq_ok hrun
    obtain ⟨d, s', hrun, h⟩ := exists_of_bind_eq_ok h
    obtain ⟨hd, rfl⟩ := of_lift_eq_ok hrun
    cases h
    refine ⟨hfresh, rfl, sighting.value, d, ?_, hd, rfl⟩
    have hahead : ahead? senses world s.rover = .ok sighting.value := by
      unfold ahead?
      rw [hdirection]
      show (world.cast? _ _ >>= _) = _
      rw [hsighting]
      rfl
    exact hahead

/-- No look at the world moves the rover. -/
theorem preserves_place_refresh (place : Vantage α × α) :
    Preserves (fun s : Station α => (s.rover.ground, s.rover.heading) = place)
      (refresh senses mapping world now) :=
  preserves_refresh (preserves_lookAhead (fun _ h => h) fun _ _ h => h) (fun _ h => h)
    (preserves_scanAround (fun _ _ h => h) fun _ _ h => h)

/-- A refresh without a fault leaves the stored distance alone while the sensor is fresh, and
otherwise measures it. -/
theorem outlook_of_refresh (h : refresh senses mapping world now s = .ok () t)
    (hactive : s.active = .rover) :
    (fresh? s.gates.distance now (.real senses.interval) = .ok true ∧ t.outlook = s.outlook) ∨
      (fresh? s.gates.distance now (.real senses.interval) = .ok false ∧
        t.gates.distance = some now ∧ Measured senses world t.rover t.rover.distance) := by
  unfold refresh at h
  rw [run_get_bind, if_neg (not_not_intro hactive)] at h
  obtain ⟨reading, u, hlook, h⟩ := exists_of_bind_eq_ok h
  rw [run_get_bind] at h
  obtain ⟨fresh, u', hrun, h⟩ := exists_of_bind_eq_ok h
  obtain ⟨-, rfl⟩ := of_lift_eq_ok hrun
  -- the lidar does not touch what the other sensor has stored
  have houtlook : t.outlook = u.outlook := by
    cases fresh with
    | true =>
      cases h
      rfl
    | false =>
      obtain ⟨_, u', ⟨⟩, h⟩ := exists_of_bind_eq_ok h
      have hkept : Preserves (fun v : Station α => v.outlook = u.outlook)
          (scanAround senses mapping world) :=
        preserves_scanAround (fun _ _ h => h) fun _ _ h => h
      exact hkept.of_ok h rfl
  rcases of_lookAhead hlook with ⟨hfresh, rfl⟩ | ⟨hstale, hgate, hmeasured⟩
  · exact .inl ⟨hfresh, houtlook⟩
  · obtain ⟨hplace, hstored⟩ := Prod.mk.inj houtlook
    obtain ⟨hdistance, hgates⟩ := Prod.mk.inj hstored
    refine .inr ⟨hstale, hgates.trans hgate, ?_⟩
    rw [hdistance]
    exact hmeasured.congr hplace

end Sensors

end ArmRover
