import ArmRover.Proofs.Execution.Effect
import ArmRover.Proofs.Simulation.Frame
import ArmRover.Proofs.Simulation.Request

/-!
# The waits of a simulation

The only one who waits is the program. Whatever is asked of a simulation, and whatever fails, it
never has an open wait that nobody waits for, so a program starts with none.

* `Simulation.Orderly` — simulations whose open waits are those of the program.
* `Simulation.preserves_frame`, `Simulation.invariant_orderly` — one frame, and every request.
* `Simulation.Reachable.orderly` — every sequence of requests.
-/

namespace ArmRover.Simulation

variable {α : Type} [Scalar α]

open ArmRover.Action

/-- The open waits are those of the program: one if it waits, and none otherwise. -/
def Orderly (s : Simulation α) : Prop :=
  match s.job with
  | some (.waiting ticket _) => ∃ due since, s.scene.clock.waits = [⟨ticket, due, since⟩]
  | _ => s.scene.clock.waits = []

omit [Scalar α] in
theorem Orderly.of_waiting {s : Simulation α} {ticket : Nat} {rest : Execution α}
    (h : s.Orderly) (hjob : s.job = some (.waiting ticket rest)) :
    ∃ due since, s.scene.clock.waits = [⟨ticket, due, since⟩] := by
  unfold Orderly at h
  rw [hjob] at h
  exact h

omit [Scalar α] in
theorem Orderly.of_not_waiting {s : Simulation α} (h : s.Orderly)
    (hjob : ∀ ticket rest, s.job ≠ some (.waiting ticket rest)) : s.scene.clock.waits = [] := by
  unfold Orderly at h
  split at h
  · next hwaiting => exact absurd hwaiting (hjob _ _)
  · exact h

omit [Scalar α] in
theorem orderly_of_not_waiting {s : Simulation α}
    (hjob : ∀ ticket rest, s.job ≠ some (.waiting ticket rest)) (h : s.scene.clock.waits = []) :
    s.Orderly := by
  unfold Orderly
  split
  · next hwaiting => exact absurd hwaiting (hjob _ _)
  · exact h

omit [Scalar α] in
/-- What neither touches the waits nor the program keeps order. -/
theorem Orderly.congr {s t : Simulation α} (h : s.Orderly)
    (hwaits : t.scene.clock.waits = s.scene.clock.waits) (hjob : t.job = s.job) : t.Orderly := by
  unfold Orderly at h ⊢
  rw [hjob, hwaits]
  exact h

/-! ### One frame -/

omit [Scalar α] in
/-- A stretch of a program that starts without open waits ends with those of the program. -/
theorem orderly_advanceJob {act : Action α (Scene α) (Progress α)}
    (hact : Opening Progress.ticket? act) {s : Simulation α} (h : s.scene.clock.waits = []) :
    (s.advanceJob act).Orderly := by
  have hopened := hact s.scene
  unfold advanceJob
  cases hrun : act s.scene with
  | error fault t =>
    rw [hrun] at hopened
    exact (congrArg Clock.waits hopened).trans h
  | ok progress t =>
    rw [hrun] at hopened
    cases progress with
    | done readings => exact (congrArg Clock.waits hopened).trans h
    | waiting ticket rest =>
      obtain ⟨hticket, due, hclock⟩ := hopened
      refine ⟨due, s.scene.clock.frame, ?_⟩
      show t.clock.waits = _
      rw [hclock, Clock.waits_register, h, hticket]
      rfl

theorem Orderly.runReady (cfg : Settings α) {s : Simulation α} (h : s.Orderly) :
    (s.runReady cfg).Orderly := by
  unfold Simulation.runReady
  split
  · next commands hjob =>
    refine orderly_advanceJob (Execution.opening_begin cfg commands) (h.of_not_waiting ?_)
    rw [hjob]
    exact nofun
  · next hjob =>
    refine orderly_of_not_waiting nofun (h.of_not_waiting ?_)
    rw [hjob]
    exact nofun
  · exact h

theorem Orderly.wake (cfg : Settings α) {s : Simulation α} (h : s.Orderly) :
    (s.wake cfg).2.Orderly := by
  by_cases hjob : ∃ ticket rest, s.job = some (.waiting ticket rest)
  · obtain ⟨ticket, rest, hjob⟩ := hjob
    obtain ⟨due, since, hwaits⟩ := h.of_waiting hjob
    rw [wake_of_waiting cfg hjob]
    -- the only open wait is that of the program, so it is released or nothing is
    cases hdue : s.scene.clock.isDue ⟨ticket, due, since⟩ with
    | true =>
      have hany : s.scene.clock.due.any (·.ticket == ticket) = true := by
        simp [Clock.due, hwaits, hdue]
      have hreleased : s.released.scene.clock.waits = [] := by
        simp [released, Clock.release, hwaits, hdue]
      rw [if_pos hany]
      exact orderly_advanceJob (Execution.opening_run _ _ _ _) hreleased
    | false =>
      have hany : ¬ s.scene.clock.due.any (·.ticket == ticket) = true := by
        simp [Clock.due, hwaits, hdue]
      rw [if_neg hany]
      refine h.congr ?_ rfl
      simp [released, Clock.release, hwaits, hdue]
  · have hnot : ∀ ticket rest, s.job ≠ some (.waiting ticket rest) :=
      fun ticket rest hwaiting => hjob ⟨ticket, rest, hwaiting⟩
    rw [wake_of_not_waiting cfg hnot]
    refine orderly_of_not_waiting hnot ?_
    simp [released, Clock.release, h.of_not_waiting hnot]

theorem Orderly.serve (cfg : Settings α) {s : Simulation α} (h : s.Orderly) :
    (s.serve cfg).Orderly :=
  settle_of_wake (fun _ ht => ht.wake cfg) _ (h.runReady cfg)

theorem preserves_frame (cfg : Settings α) (dt : α) :
    Preserves Orderly (frame cfg dt) := by
  rw [frame_eq]
  refine preserves_bind (fun s h => ?_) fun _ => preserves_modify fun s h => h.serve cfg
  have hpassed := passed cfg dt s
  refine h.congr ?_ hpassed.job
  rw [hpassed.clock]
  rfl

/-! ### Requests -/

omit [Scalar α] in
theorem preserves_cancel : Preserves Orderly (cancel : Action α (Simulation α) Unit) := by
  refine preserves_get_bind fun s h => ?_
  cases hjob : s.job with
  | none => exact h
  | some job =>
    cases job with
    | fresh commands =>
      have hwaits : s.scene.clock.waits = [] := h.of_not_waiting (by rw [hjob]; exact nofun)
      exact orderly_of_not_waiting (s := { s with job := some .cancelling }) nofun hwaits
    | waiting ticket rest =>
      obtain ⟨due, since, hwaits⟩ := h.of_waiting hjob
      -- the wait goes with the program
      have hdrop : (s.scene.clock.drop ticket).waits = [] := by simp [Clock.drop, hwaits]
      let dropped : Scene α := { s.scene with clock := s.scene.clock.drop ticket }
      exact orderly_of_not_waiting (s := ⟨dropped, s.world, some .cancelling⟩) nofun hdrop
    | cancelling => exact h
    | cancelled => exact h
    | failed fault => exact h
    | finished readings => exact h

theorem invariant_orderly (cfg : Settings α) : Invariant cfg (fun _ => True) Orderly where
  started commands hrunning h :=
    orderly_of_not_waiting nofun (h.of_not_waiting (not_waiting_of_not_running hrunning))
  switched _ _ h := h.congr rfl rfl
  told hjob h := orderly_of_not_waiting nofun (h.of_not_waiting (by rw [hjob]; exact nofun))
  cancel := preserves_cancel
  reset _ _ := orderly_of_not_waiting nofun rfl
  frame _ := preserves_frame cfg _

theorem Orderly.ask (cfg : Settings α) {s : Simulation α} (h : s.Orderly) (r : Request α) :
    (s.ask cfg r).2.Orderly :=
  (invariant_orderly cfg).ask (fun _ _ => trivial) h

/-- No sequence of requests leaves a wait that nobody waits for. -/
theorem Reachable.orderly {cfg : Settings α} {world : World α} {s : Simulation α}
    (h : s.Reachable cfg world) : s.Orderly := by
  obtain ⟨requests, rfl⟩ := h
  have hnew : (new cfg world).Orderly := orderly_of_not_waiting nofun rfl
  exact (invariant_orderly cfg).after (fun _ _ _ _ => trivial) hnew

end ArmRover.Simulation
