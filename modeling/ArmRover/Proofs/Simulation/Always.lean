import ArmRover.Proofs.Simulation.Single

/-!
# What holds at every moment

A property of the station that nothing breaks: not the passing of time, not the writes of programs,
not a request. It holds after every request, and also within a request at every moment at which a
program waits.

* `Station.Enduring` — such properties, `Station.Unbroken` — those that also outlast any movement of
  the fingers.
* `Station.Enduring.invariant` — requests keep them, `Station.Enduring.during` — the moments of a
  request have them.
-/

namespace ArmRover

variable {α : Type} [Scalar α]

open ArmRover.Action

/-- A property of the station that time, programs and requests keep, however the arm moves. -/
structure Station.Unbroken (cfg : Settings α) (P : Station α → Prop) : Prop where
  handled : Station.LastingArm P
  steered : Station.Steered cfg.driving P
  kept : Station.Kept cfg P
  switched (s : Station α) (active : Robot) : P s → P { s with active }
  homeArm (s : Station α) : P s → P (s.homeArm cfg.toRig)
  homeRover (s : Station α) : P s → P (s.homeRover cfg.toRig)
  reset (s : Station α) : P s → P (Sensors.reset s)
  refreshed (world : World α) (now : α) :
    Preserves P (Sensors.refresh cfg.senses cfg.mapping world now)

/-- A property of the station that time, programs and requests keep. It may rest on the way in which
the fingers move. -/
structure Station.Enduring (cfg : Settings α) (P : Station α → Prop) : Prop where
  advanced (dt : α) : Preserves P (Feedback.advance cfg.grip.strokeTime dt)
  steered : Station.Steered cfg.driving P
  kept : Station.Kept cfg P
  switched (s : Station α) (active : Robot) : P s → P { s with active }
  homeArm (s : Station α) : P s → P (s.homeArm cfg.toRig)
  homeRover (s : Station α) : P s → P (s.homeRover cfg.toRig)
  reset (s : Station α) : P s → P (Sensors.reset s)
  refreshed (world : World α) (now : α) :
    Preserves P (Sensors.refresh cfg.senses cfg.mapping world now)

theorem Station.Unbroken.enduring {cfg : Settings α} {P : Station α → Prop}
    (h : Station.Unbroken cfg P) : Station.Enduring cfg P :=
  { h with advanced := Feedback.preserves_advance_of h.handled _ }

namespace Station.Enduring

variable {cfg : Settings α} {P : Station α → Prop}

theorem home (h : Enduring cfg P) (s : Station α) (hs : P s) : P (s.home cfg.toRig) := by
  unfold Station.home
  cases s.active with
  | arm => exact h.homeArm s hs
  | rover => exact h.homeRover s hs

/-! ### Programs -/

theorem resume (h : Enduring cfg P) (rest : Execution α) :
    Preserves (fun s : Scene α => P s.station) (Execution.resume cfg rest) :=
  Execution.preserves_run_of (Step.preserves_take_of h.kept) rest.commands rest.steps rest.readings

theorem begin (h : Enduring cfg P) (commands : List (Command α)) :
    Preserves (fun s : Scene α => P s.station) (Execution.begin cfg commands) := by
  refine preserves_bind preserves_get fun _ => ?_
  refine preserves_bind (preserves_modify fun s hs => h.home s.station hs) fun _ => ?_
  exact Execution.preserves_run_of (Step.preserves_take_of h.kept) _ _ _

variable {s : Simulation α}

theorem runReady (h : Enduring cfg P) (hs : P s.scene.station) :
    P (s.runReady cfg).scene.station := by
  unfold Simulation.runReady
  split
  · exact Simulation.advanceJob_preserves (h.begin _) hs
  · exact hs
  · exact hs

theorem wake (h : Enduring cfg P) (hs : P s.scene.station) : P (s.wake cfg).2.scene.station :=
  Simulation.wake_preserves cfg (fun _ ht => ht) h.resume hs

/-! ### Requests -/

theorem pass (h : Enduring cfg P) (dt : α) (hs : P s.scene.station) :
    P (final (Simulation.pass cfg dt s)).scene.station :=
  Simulation.pass_preserves_of (h.advanced dt)
    (Drive.preserves_advance_of h.steered _ _) (h.refreshed _ _) hs

theorem frame (h : Enduring cfg P) (dt : α) :
    Preserves (fun s : Simulation α => P s.scene.station) (Simulation.frame cfg dt) := by
  rw [Simulation.frame_eq]
  refine preserves_bind (fun s hs => h.pass dt hs) fun _ => preserves_modify fun s hs => ?_
  exact Simulation.serve_preserves cfg (fun _ ht => ht) h.begin h.resume hs

theorem invariant (h : Enduring cfg P) :
    Simulation.Invariant cfg (fun _ => True) fun s => P s.scene.station where
  started _ _ hs := hs
  switched {s} active _ hs := h.switched s.scene.station active hs
  told _ hs := hs
  cancel := by
    refine preserves_get_bind fun s hs => ?_
    cases hjob : s.job with
    | none => exact hs
    | some job => cases job <;> exact hs
  reset := fun s hs => h.reset _ (h.home s.scene.station hs)
  frame _ := h.frame _

theorem ask (h : Enduring cfg P) (r : Request α) (hs : P s.scene.station) :
    P (s.ask cfg r).2.scene.station :=
  h.invariant.ask (fun _ _ => trivial) hs

/-! ### Moments -/

theorem duringSettle (h : Enduring cfg P) (n : Nat) (hs : P s.scene.station) :
    ∀ t ∈ s.duringSettle cfg n, P t.scene.station := by
  induction n generalizing s with
  | zero => exact List.forall_mem_nil _
  | succ n ih =>
    have hwake := h.wake hs
    unfold Simulation.duringSettle
    refine List.forall_mem_cons.mpr ⟨hs, ?_⟩
    split
    · next t hrun =>
      rw [hrun] at hwake
      exact List.forall_mem_singleton.mpr hwake
    · next t hrun =>
      rw [hrun] at hwake
      exact List.forall_mem_cons.mpr ⟨hwake, ih hwake⟩

theorem duringFrame (h : Enduring cfg P) (dt : α) (hs : P s.scene.station) :
    ∀ t ∈ s.duringFrame cfg dt, P t.scene.station := by
  have hpassed := h.pass dt hs
  unfold Simulation.duringFrame
  cases hpass : Simulation.pass cfg dt s with
  | error fault t =>
    rw [hpass] at hpassed
    exact List.forall_mem_singleton.mpr hpassed
  | ok _ t =>
    rw [hpass] at hpassed
    have hready := h.runReady hpassed
    refine List.forall_mem_cons.mpr ⟨hpassed, List.forall_mem_cons.mpr ⟨hready, ?_⟩⟩
    exact h.duringSettle _ hready

theorem during (h : Enduring cfg P) (r : Request α) (hs : P s.scene.station) :
    ∀ t ∈ s.during cfg r, P t.scene.station :=
  Simulation.Marks.request ⟨h.frame, fun dt _ hs => h.duringFrame dt hs⟩ r hs

end Station.Enduring

end ArmRover
