import ArmRover.Proofs.Execution.Faults
import ArmRover.Proofs.Simulation.Frame

/-!
# The faults of frames and programs

No frame fails as a run does that gives up, and no program does: only a run of many frames tells
that the time is over, or that its frames are used up.

* `Simulation.throws_pass` — a frame.
* `Job.Own`, `Simulation.Candid` — programs without a fault of a run, neither told nor planned.
  `Simulation.invariant_candid` — requests keep it so.
-/

namespace ArmRover

variable {α : Type} [Scalar α]

open ArmRover.Action

omit [Scalar α] in
/-- A program that has not failed with a fault of a run, and holds none for later. -/
def Job.Own : Job α → Prop
  | waiting _ rest => ∀ step ∈ rest.steps, step.Own
  | failed fault => fault.Own
  | _ => True

namespace Simulation

theorem throws_pass (cfg : Settings α) (dt : α) : Throws Fault.Own (pass cfg dt) := by
  refine throws_bind (throws_modify _) fun _ => throws_bind throws_get fun s => ?_
  refine throws_bind (throws_on (Feedback.throws_advance _ dt)) fun _ => ?_
  refine throws_bind (throws_on (Drive.throws_advance _ dt _)) fun _ => ?_
  exact throws_on (Sensors.throws_refresh _ _ _ _)

omit [Scalar α] in
/-- The program of the simulation, if there is one, has no fault of a run. -/
def Candid (s : Simulation α) : Prop := ∀ job ∈ s.job, job.Own

omit [Scalar α] in
theorem Candid.congr {s t : Simulation α} (h : s.Candid) (hjob : t.job = s.job) : t.Candid := by
  unfold Candid
  rw [hjob]
  exact h

omit [Scalar α] in
theorem candid_of_job {s : Simulation α} {job : Job α} (hjob : s.job = some job) (h : job.Own) :
    s.Candid := by
  intro job' hjob'
  rw [hjob] at hjob'
  exact Option.some.inj hjob' ▸ h

omit [Scalar α] in
theorem candid_advanceJob {act : Action α (Scene α) (Progress α)} (hact : Throws Fault.Own act)
    {s : Simulation α} (hleft : ∀ {ticket rest t}, act s.scene = .ok (.waiting ticket rest) t →
      ∀ step ∈ rest.steps, step.Own) : (s.advanceJob act).Candid := by
  unfold advanceJob
  cases hrun : act s.scene with
  | error fault t => exact candid_of_job rfl (hact _ fault t hrun)
  | ok progress t =>
    cases progress with
    | waiting ticket rest => exact candid_of_job rfl (hleft hrun)
    | done readings => exact candid_of_job rfl trivial

theorem Candid.runReady (cfg : Settings α) {s : Simulation α} (h : s.Candid) :
    (s.runReady cfg).Candid := by
  have hreset : ∀ step ∈ [Step.pausing cfg.pauses.reset], step.Own :=
    List.forall_mem_singleton.mpr (Step.own_pausing _)
  unfold Simulation.runReady
  split
  · refine candid_advanceJob ?_ fun hrun => ?_
    · exact throws_bind throws_get fun _ => throws_bind (throws_modify _) fun _ =>
        Execution.throws_run cfg _ hreset []
    · exact Execution.own_of_run hreset (s := s.scene.onStation (·.home cfg.toRig)) hrun
  · exact candid_of_job rfl trivial
  · exact h

theorem Candid.wake (cfg : Settings α) {s : Simulation α} (h : s.Candid) :
    (s.wake cfg).2.Candid := by
  by_cases hjob : ∃ ticket rest, s.job = some (.waiting ticket rest)
  · obtain ⟨ticket, rest, hjob⟩ := hjob
    have hrest : ∀ step ∈ rest.steps, step.Own := h _ hjob
    rw [wake_of_waiting cfg hjob]
    dsimp only
    split
    · exact candid_advanceJob (Execution.throws_run cfg _ hrest _) (Execution.own_of_run hrest)
    · exact h.congr rfl
  · rw [wake_of_not_waiting cfg fun ticket rest hwaiting => hjob ⟨ticket, rest, hwaiting⟩]
    exact h.congr rfl

theorem Candid.serve (cfg : Settings α) {s : Simulation α} (h : s.Candid) :
    (s.serve cfg).Candid :=
  settle_of_wake (fun _ ht => ht.wake cfg) _ (h.runReady cfg)

theorem preserves_candid_frame (cfg : Settings α) (dt : α) : Preserves Candid (frame cfg dt) := by
  rw [frame_eq]
  refine preserves_bind (fun s h => ?_) fun _ => preserves_modify fun s h => h.serve cfg
  exact h.congr (passed cfg dt s).job

omit [Scalar α] in
theorem preserves_candid_cancel : Preserves Candid (cancel : Action α (Simulation α) Unit) := by
  refine preserves_get_bind fun s h => ?_
  cases hjob : s.job with
  | none => exact h
  | some job =>
    cases job with
    | fresh commands => exact candid_of_job rfl trivial
    | waiting ticket rest => exact candid_of_job rfl trivial
    | _ => exact h

/-- Whatever is asked of a simulation, its program has no fault of a run. -/
theorem invariant_candid (cfg : Settings α) : Invariant cfg (fun _ => True) Candid where
  started _ _ _ := candid_of_job rfl trivial
  switched _ _ h := h.congr rfl
  told hjob h := candid_of_job rfl (Fault.own_again (h _ hjob))
  cancel := preserves_candid_cancel
  reset _ _ := nofun
  frame _ := preserves_candid_frame cfg _

end Simulation

end ArmRover
