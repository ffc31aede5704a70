import ArmRover.Proofs.Station.Passing

/-!
# When the sensors are refreshed

Whether a sensor is due depends on the time and on when it was last refreshed, and on nothing that
it could see: what the robots are doing does not matter, as long as no fault comes between.

* `Sensors.refreshed?`, `Sensors.gates?` — when the sensors were last refreshed, after a refresh.
* `Sensors.refresh_of_fresh` — a refresh while both are fresh, `Sensors.gates?_of_refresh` — any
  refresh leaves what the gates tell.
-/

namespace ArmRover

variable {α : Type}

/-- Which robot is active and when its sensors were refreshed outlasts any movement. -/
theorem Station.lasting_gates (active : Robot) (gates : Gates α) :
    Lasting fun s => s.active = active ∧ s.gates = gates where
  arm _ _ _ _ h := h
  gripper _ _ _ _ h := h
  rover _ _ _ h := h

namespace Sensors

variable [Scalar α]

/-- When a sensor was last refreshed, once it is refreshed if it is due. -/
def refreshed? (last : Option α) (now : α) (interval : Value α) :
    Except (Fault α) (Option α) := do
  return if ← fresh? last now interval then last else some now

/-- The gates of the sensors that belong to the active robot, once those that are due are
refreshed. -/
def gates? (senses : Settings.Senses α) (now : α) (active : Robot) (gates : Gates α) :
    Except (Fault α) (Gates α) :=
  match active with
  | .arm => .ok gates
  | .rover => do
    let distance ← refreshed? gates.distance now (.real senses.interval)
    let scan ← refreshed? gates.scan now senses.scanInterval
    return ⟨distance, scan⟩

open ArmRover.Action

theorem refreshed?_of_fresh {last : Option α} {now : α} {interval : Value α} {fresh : Bool}
    (h : fresh? last now interval = .ok fresh) :
    refreshed? last now interval = .ok (if fresh then last else some now) := by
  unfold refreshed?
  rw [h]
  rfl

theorem gates_of_lookAhead {senses : Settings.Senses α} {world : World α} {now : α}
    {reading : Value α} {s t : Station α} (h : lookAhead senses world now s = .ok reading t) :
    refreshed? s.gates.distance now (.real senses.interval) = .ok t.gates.distance ∧
      t.gates.scan = s.gates.scan := by
  unfold lookAhead at h
  rw [run_get_bind] at h
  obtain ⟨fresh, s', hrun, h⟩ := exists_of_bind_eq_ok h
  obtain ⟨hfresh, rfl⟩ := of_lift_eq_ok hrun
  cases fresh with
  | true =>
    cases h
    exact ⟨refreshed?_of_fresh hfresh, rfl⟩
  | false =>
    obtain ⟨_, s', ⟨⟩, h⟩ := exists_of_bind_eq_ok h
    have hgates : t.gates = ⟨some now, s.gates.scan⟩ := by
      refine Preserves.of_ok (P := fun t => t.gates = ⟨some now, s.gates.scan⟩) ?_ h rfl
      refine preserves_bind (preserves_lift _) fun direction => ?_
      refine preserves_bind (preserves_lift _) fun sighting => ?_
      refine preserves_bind (preserves_lift _) fun reading => ?_
      exact preserves_bind (preserves_modify fun _ h => h) fun _ => preserves_pure _
    rw [hgates]
    exact ⟨refreshed?_of_fresh hfresh, rfl⟩

/-- As long as both sensors are fresh nothing happens. -/
theorem refresh_of_fresh {senses : Settings.Senses α} {mapping : Settings.Mapping α}
    {world : World α} {now : α} {s : Station α}
    (hdistance : fresh? s.gates.distance now (.real senses.interval) = .ok true)
    (hscan : fresh? s.gates.scan now senses.scanInterval = .ok true) :
    refresh senses mapping world now s = .ok () s := by
  have hlook : lookAhead senses world now s = .ok s.rover.distance s := by
    unfold lookAhead
    rw [run_get_bind, hdistance]
    rfl
  unfold refresh
  rw [run_get_bind]
  split
  · rfl
  · rw [run_bind hlook, run_get_bind, hscan]
    rfl

/-- After a refresh without a fault the gates only depend on those before and on the time. -/
theorem gates?_of_refresh {senses : Settings.Senses α} {mapping : Settings.Mapping α}
    {world : World α} {now : α} {s t : Station α}
    (h : refresh senses mapping world now s = .ok () t) :
    gates? senses now s.active s.gates = .ok t.gates := by
  unfold refresh at h
  rw [run_get_bind] at h
  cases hactive : s.active with
  | arm =>
    rw [hactive] at h
    cases h
    rfl
  | rover =>
    rw [hactive, if_neg (not_not_intro rfl)] at h
    obtain ⟨reading, s', hlook, h⟩ := exists_of_bind_eq_ok h
    obtain ⟨hdistance, hscan⟩ := gates_of_lookAhead hlook
    rw [run_get_bind] at h
    obtain ⟨fresh, s'', hrun, h⟩ := exists_of_bind_eq_ok h
    obtain ⟨hfresh, rfl⟩ := of_lift_eq_ok hrun
    have hnext := refreshed?_of_fresh hfresh
    rw [hscan] at hnext
    unfold gates?
    dsimp only
    rw [hdistance, hnext]
    cases fresh with
    | true =>
      cases h
      exact congrArg (fun scan => Except.ok (Gates.mk _ scan)) hscan.symm
    | false =>
      obtain ⟨_, s', ⟨⟩, h⟩ := exists_of_bind_eq_ok h
      have hkept : Preserves (fun u : Station α => u.gates = ⟨s'.gates.distance, some now⟩)
          (scanAround senses mapping world) :=
        preserves_scanAround (fun _ _ h => h) fun _ _ h => h
      exact congrArg Except.ok (hkept.of_ok h rfl).symm

end Sensors

end ArmRover
