import ArmRover.Proofs.Simulation.Account

/-!
# Looks in the past

Nothing keeps a frame from being of a negative length, and then a sensor that has just looked has
looked at a time to come. As long as no frame goes back in time it has not: only a look closes the
gate of a sensor, and it closes it at the time it is.

* `Simulation.ForwardReachable` — where requests lead whose frames do not go back in time.
* `Scene.LooksBack` — scenes whose distance sensor looked last at a time that is past.
* `Simulation.invariant_looksBack` — every request keeps that,
  `Simulation.ForwardReachable.looksBack` — so it holds of those simulations.
-/

namespace ArmRover

open ArmRover.Action

/-- The time at which the distance sensor looked last is past. -/
def Scene.LooksBack (s : Scene ℝ) : Prop := ∀ last ∈ s.station.gates.distance, last ≤ s.clock.now

/-- Going home does not open the gates of the sensors. -/
theorem Station.gates_home {α : Type} [Scalar α] (rig : Rig α) (s : Station α) :
    (s.home rig).gates = s.gates := by
  unfold home
  split <;> rfl

namespace Simulation

/-- The simulations that requests lead to from a new one, if no frame goes back in time. -/
def ForwardReachable (cfg : Settings ℝ) (world : World ℝ) (s : Simulation ℝ) : Prop :=
  ∃ requests : List (Request ℝ), (∀ r ∈ requests, ∀ dt ∈ r.frameTime?, 0 ≤ dt) ∧
    s = (new cfg world).after cfg requests

theorem ForwardReachable.reachable {cfg : Settings ℝ} {world : World ℝ} {s : Simulation ℝ}
    (h : s.ForwardReachable cfg world) : s.Reachable cfg world := by
  obtain ⟨requests, -, rfl⟩ := h
  exact ⟨requests, rfl⟩

variable (cfg : Settings ℝ)

/-! ### The halves of a frame -/

/-- A look closes the gate at the time it is. -/
theorem preserves_past_refresh (world : World ℝ) (now : ℝ) :
    Preserves (fun s : Station ℝ => ∀ last ∈ s.gates.distance, last ≤ now)
      (Sensors.refresh cfg.senses cfg.mapping world now) := by
  refine Sensors.preserves_refresh (Sensors.preserves_lookAhead (fun s _ last hlast => ?_)
    fun _ _ h => h) (fun _ h => h) (Sensors.preserves_scanAround (fun _ _ h => h) fun _ _ h => h)
  exact (Option.mem_some_iff.mp hlast).ge

theorem looksBack_pass {dt : ℝ} (hdt : 0 ≤ dt) {s : Simulation ℝ} (h : s.scene.LooksBack) :
    (final (pass cfg dt s)).scene.LooksBack := by
  let now := (s.scene.clock.advance dt).now
  have hlasting : Station.Lasting fun u : Station ℝ => ∀ last ∈ u.gates.distance, last ≤ now :=
    ⟨fun _ _ _ _ hu => hu, fun _ _ _ _ hu => hu, fun _ _ _ hu => hu⟩
  have hstart : ∀ last ∈ s.scene.station.gates.distance, last ≤ now := by
    intro last hlast
    have hnow : now = s.scene.clock.now + dt := rfl
    linarith [h last hlast]
  unfold Scene.LooksBack
  rw [(passed cfg dt s).clock]
  exact pass_preserves hlasting cfg dt (preserves_past_refresh cfg s.world now) hstart

theorem preserves_looksBack_take (step : Step ℝ) : Preserves Scene.LooksBack (step.take cfg) := by
  intro t ht
  obtain ⟨hnow, houtlook⟩ :=
    preserves_shows cfg t.clock.now t.station.outlook step t ⟨rfl, rfl⟩
  unfold Scene.LooksBack
  rw [hnow, (Prod.mk.inj (Prod.mk.inj houtlook).2).2]
  exact ht

theorem looksBack_serve {s : Simulation ℝ} (h : s.scene.LooksBack) :
    (s.serve cfg).scene.LooksBack := by
  have hrun := fun commands steps readings =>
    Execution.preserves_run_of (preserves_looksBack_take cfg) commands steps readings
  refine serve_preserves cfg (fun _ ht => ht) (fun commands => ?_)
    (fun rest => hrun rest.commands rest.steps rest.readings) h
  refine preserves_bind preserves_get fun _ => ?_
  refine preserves_bind (preserves_modify fun t ht => ?_) fun _ => hrun _ _ _
  show ∀ last ∈ (t.station.home cfg.toRig).gates.distance, last ≤ t.clock.now
  rw [Station.gates_home]
  exact ht

/-! ### Requests -/

theorem invariant_looksBack :
    Invariant cfg (fun dt => 0 ≤ dt) fun s : Simulation ℝ => s.scene.LooksBack where
  started _ _ h := h
  switched _ _ h := h
  told _ h := h
  cancel := by
    refine preserves_get_bind fun s h => ?_
    cases hjob : s.job with
    | none => exact h
    | some job => cases job <;> exact h
  reset _ _ := nofun
  frame hdt := by
    rw [frame_eq]
    refine preserves_bind (fun s h => looksBack_pass cfg hdt h) fun _ => ?_
    exact preserves_modify fun s h => looksBack_serve cfg h

/-- A sensor that is never sent back in time has looked at a time that is past. -/
theorem ForwardReachable.looksBack {cfg : Settings ℝ} {world : World ℝ} {s : Simulation ℝ}
    (h : s.ForwardReachable cfg world) : s.scene.LooksBack := by
  obtain ⟨requests, hforward, rfl⟩ := h
  have hnew : (new cfg world).scene.LooksBack := nofun
  exact (invariant_looksBack cfg).after hforward hnew

end Simulation

end ArmRover
