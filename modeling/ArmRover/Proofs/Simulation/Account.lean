import ArmRover.Proofs.Execution.Handout
import ArmRover.Proofs.Simulation.Finish

/-!
# What a run hands out

A run that hands out readings has gone through frames without a fault, to one in which the program
is finished. The readings are those of the commands that have begun until then, as long as a
distance is stored.

* `Simulation.of_mem_begunSettling`, `Simulation.world_serve` — the second half of a frame.
* `Simulation.Accounts` — the readings of a program are those of a log, `Simulation.Accounts.serve`
  — and go on to be, with the commands that begin in a frame.
* `Simulation.exists_frames_of_run` — the frames of a run.
-/

namespace ArmRover

open ArmRover.Action

/-- A scene at a time, with a rover that stands in a place and has stored a distance. -/
def Scene.Shows {α : Type} (now : α) (outlook : (Vantage α × α) × Value α × Option α)
    (s : Scene α) : Prop :=
  s.clock.now = now ∧ s.station.outlook = outlook

namespace Simulation

/-! ### The second half of a frame -/

section Scenes

variable {α : Type} [Scalar α] {P : Scene α → Prop}

/-- What the release of waits and every step preserve holds in the scenes in which commands
begin. -/
theorem of_mem_begunAwake {cfg : Settings α}
    (hrelease : ∀ s, P s → P { s with clock := s.clock.release })
    (hstep : ∀ step : Step α, Preserves P (step.take cfg)) {s : Simulation α} (h : P s.scene) :
    ∀ entry ∈ s.begunAwake cfg, P entry.2 := by
  unfold begunAwake
  split
  · split
    · exact Execution.of_mem_begun hstep (hrelease s.scene h)
    · exact List.forall_mem_nil _
  · exact List.forall_mem_nil _

theorem of_mem_begunSettling {cfg : Settings α}
    (hrelease : ∀ s, P s → P { s with clock := s.clock.release })
    (hstep : ∀ step : Step α, Preserves P (step.take cfg)) (fuel : Nat) {s : Simulation α}
    (h : P s.scene) : ∀ entry ∈ s.begunSettling cfg fuel, P entry.2 := by
  induction fuel generalizing s with
  | zero => exact List.forall_mem_nil _
  | succ fuel ih =>
    have hnext := wake_preserves cfg hrelease
      (fun rest => Execution.preserves_run_of hstep rest.commands rest.steps rest.readings) h
    unfold begunSettling
    refine List.forall_mem_append.mpr ⟨of_mem_begunAwake hrelease hstep h, ?_⟩
    split
    · exact List.forall_mem_nil _
    · next hrun =>
      rw [hrun] at hnext
      exact ih hnext

theorem preserves_shows (cfg : Settings α) (now : α)
    (outlook : (Vantage α × α) × Value α × Option α) (step : Step α) :
    Preserves (Scene.Shows now outlook) (step.take cfg) :=
  (preserves_now (step.opening_take cfg) now).and (step.preserves_outlook cfg outlook)

omit [Scalar α] in
theorem world_advanceJob (act : Action α (Scene α) (Progress α)) (s : Simulation α) :
    (s.advanceJob act).world = s.world := by
  unfold advanceJob
  split <;> rfl

theorem world_wake (cfg : Settings α) (s : Simulation α) : (s.wake cfg).2.world = s.world := by
  unfold wake
  dsimp only
  split
  · split
    · exact world_advanceJob _ _
    · rfl
  · rfl

/-- No program changes the world. -/
theorem world_serve (cfg : Settings α) (s : Simulation α) : (s.serve cfg).world = s.world := by
  refine settle_of_wake (P := fun t => t.world = s.world) (fun t ht => ?_) _ ?_
  · exact (t.world_wake cfg).trans ht
  · unfold runReady
    split
    · exact world_advanceJob _ _
    · rfl
    · rfl

end Scenes

/-! ### Accounts -/

/-- The readings of a log are those that the program has handed out or still holds, unless it has
failed. -/
def Accounts (log : List (Command ℝ × Scene ℝ)) (s : Simulation ℝ) : Prop :=
  match s.job with
  | some (.waiting _ rest) => rest.account = Command.readings log
  | some (.finished readings) => readings = Command.readings log
  | some (.failed _) => True
  | _ => False

namespace Accounts

variable {cfg : Settings ℝ} {log : List (Command ℝ × Scene ℝ)} {s t : Simulation ℝ}

theorem congr (h : Accounts log s) (hjob : t.job = s.job) : Accounts log t := by
  unfold Accounts at h ⊢
  rw [hjob]
  exact h

theorem of_waiting (h : Accounts log s) {ticket : Nat} {rest : Execution ℝ}
    (hjob : s.job = some (.waiting ticket rest)) : rest.account = Command.readings log := by
  unfold Accounts at h
  rw [hjob] at h
  exact h

theorem resume {rest : Execution ℝ} (h : rest.account = Command.readings log)
    (hstored : s.scene.station.rover.distance ≠ .null) :
    Accounts (log ++ Execution.begun cfg rest.commands rest.steps rest.readings s.scene)
      (s.advanceJob (Execution.resume cfg rest)) := by
  unfold advanceJob
  cases hrun : Execution.resume cfg rest s.scene with
  | error fault scene => trivial
  | ok progress scene =>
    have haccount : progress.account = Command.readings
        (log ++ Execution.begun cfg rest.commands rest.steps rest.readings s.scene) := by
      rw [Execution.account_run hrun hstored]
      unfold Command.readings
      rw [List.filterMap_append]
      exact congrArg (· ++ _) h
    cases progress with
    | waiting ticket rest => exact haccount
    | done readings => exact haccount

theorem wake (h : Accounts log s) (hstored : s.scene.station.rover.distance ≠ .null) :
    Accounts (log ++ s.begunAwake cfg) (s.wake cfg).2 := by
  by_cases hjob : ∃ ticket rest, s.job = some (.waiting ticket rest)
  · obtain ⟨ticket, rest, hjob⟩ := hjob
    rw [wake_of_waiting cfg hjob]
    unfold begunAwake
    rw [hjob]
    dsimp only
    split
    · exact resume (s := s.released) (h.of_waiting hjob) hstored
    · rw [List.append_nil]
      exact h.congr rfl
  · have hnot : ∀ ticket rest, s.job ≠ some (.waiting ticket rest) :=
      fun ticket rest hwaiting => hjob ⟨ticket, rest, hwaiting⟩
    have hnone : s.begunAwake cfg = [] := by
      unfold begunAwake
      split
      · next hwaiting => exact absurd hwaiting (hnot _ _)
      · rfl
    rw [wake_of_not_waiting cfg hnot, hnone, List.append_nil]
    exact h.congr rfl

theorem settle (fuel : Nat) (h : Accounts log s)
    (hstored : s.scene.station.rover.distance ≠ .null) :
    Accounts (log ++ s.begunSettling cfg fuel) (s.settle cfg fuel) := by
  induction fuel generalizing log s with
  | zero => exact (List.append_nil log).symm ▸ h
  | succ fuel ih =>
    have hnext : Accounts (log ++ s.begunAwake cfg) (s.wake cfg).2 := h.wake hstored
    have hkept := wake_preserves cfg
      (P := fun t => t.station.outlook = s.scene.station.outlook) (fun _ ht => ht)
      (fun rest => Execution.preserves_run_of (fun step => step.preserves_outlook cfg _)
        rest.commands rest.steps rest.readings) (s := s) rfl
    rw [Simulation.settle, begunSettling, ← List.append_assoc]
    revert hnext hkept
    generalize s.wake cfg = woken
    obtain ⟨released, t⟩ := woken
    intro hnext hkept
    cases released with
    | zero => exact (List.append_nil _).symm ▸ hnext
    | succ released =>
      refine ih hnext ?_
      rw [(Prod.mk.inj (Prod.mk.inj hkept).2).1]
      exact hstored

/-- A program that has begun is not begun again. -/
theorem runReady (cfg : Settings ℝ) (h : Accounts log s) :
    s.runReady cfg = s ∧ s.begunReady cfg = [] := by
  unfold Accounts at h
  unfold Simulation.runReady begunReady
  split at h
  · next hjob => rw [hjob]; exact ⟨rfl, rfl⟩
  · next hjob => rw [hjob]; exact ⟨rfl, rfl⟩
  · next hjob => rw [hjob]; exact ⟨rfl, rfl⟩
  · exact h.elim

theorem serve_eq (cfg : Settings ℝ) (h : Accounts log s) :
    s.serve cfg = s.settle cfg (s.sleepsLeft cfg + 2) ∧
      s.begunServing cfg = s.begunSettling cfg (s.sleepsLeft cfg + 2) := by
  obtain ⟨hready, hbegun⟩ := h.runReady cfg
  unfold Simulation.serve begunServing
  rw [hbegun, hready]
  exact ⟨rfl, rfl⟩

/-- With a distance stored, a frame adds the readings of the commands that begin in it. -/
theorem serve (h : Accounts log s) (hstored : s.scene.station.rover.distance ≠ .null) :
    Accounts (log ++ s.begunServing cfg) (s.serve cfg) := by
  obtain ⟨hserve, hbegun⟩ := h.serve_eq cfg
  rw [hserve, hbegun]
  exact h.settle _ hstored

/-- Commands begin, and the frame ends, with the rover and its sensor as they were when the program
went on. -/
theorem shows_serve (cfg : Settings ℝ) (h : Accounts log s) :
    Scene.Shows s.scene.clock.now s.scene.station.outlook (s.serve cfg).scene ∧
      ∀ entry ∈ s.begunServing cfg,
        Scene.Shows s.scene.clock.now s.scene.station.outlook entry.2 := by
  obtain ⟨hserve, hbegun⟩ := h.serve_eq cfg
  rw [hserve, hbegun]
  have hstep := preserves_shows cfg s.scene.clock.now s.scene.station.outlook
  exact ⟨settle_preserves cfg (fun _ ht => ht)
      (fun rest => Execution.preserves_run_of hstep rest.commands rest.steps rest.readings) _
      ⟨rfl, rfl⟩,
    of_mem_begunSettling (fun _ ht => ht) hstep _ ⟨rfl, rfl⟩⟩

end Accounts

/-! ### The frames of a run -/

variable {cfg : Settings ℝ} {dt since : ℝ} {limit : Value ℝ} {readings : List (Value ℝ)}
  {s t : Simulation ℝ}

/-- The program is finished with its readings, or there is none or a cancelled one, and no
readings. -/
theorem job_of_verdict? (h : s.verdict? limit since = some (.ok readings)) :
    s.job = some (.finished readings) ∨ s.job = none ∨ s.job = some .cancelled := by
  unfold verdict? at h
  split at h
  · next hjob => exact .inr (.inl hjob)
  · next hjob => exact .inr (.inr hjob)
  · next hjob =>
    cases h
    exact .inl hjob
  · cases h
  · obtain ⟨fault, -, hfault⟩ := Option.map_eq_some_iff.mp h
    cases hfault

theorem of_tell_eq_ok {verdict : Except (Fault ℝ) (List (Value ℝ))}
    (hverdict : s.verdict? limit since = some verdict) (h : tell verdict s = .ok readings t) :
    t = s ∧ s.verdict? limit since = some (.ok readings) := by
  obtain ⟨u, htell, hsame⟩ := tell_eq verdict s
  rw [htell] at h
  obtain ⟨rfl, rfl⟩ := of_lift_eq_ok h
  refine ⟨hsame fun fault hjob => ?_, hverdict⟩
  -- a program that has failed has no readings
  unfold verdict? at hverdict
  rw [hjob] at hverdict
  cases hverdict

/-- A run that hands out readings has gone through frames without a fault, up to the verdict. -/
theorem exists_frames_of_run {frames : Nat}
    (h : runFrames cfg dt limit since frames s = .ok readings t) :
    ∃ n, t = s.frames cfg dt n ∧
      (∀ j < n, ∃ u, pass cfg dt (s.frames cfg dt j) = .ok () u) ∧
      t.verdict? limit since = some (.ok readings) := by
  rw [runFrames_eq] at h
  obtain ⟨n, -, hgone, hend⟩ := exists_of_framesUntil cfg dt (judged? limit since) frames s
  obtain ⟨last, hlast, hrun⟩ | ⟨-, -, hrun⟩ | ⟨-, -, fault, u, -, hrun⟩ := hend
  · obtain ⟨verdict, hverdict, rfl⟩ := Option.map_eq_some_iff.mp hlast
    obtain ⟨rfl, hend⟩ := of_tell_eq_ok hverdict (hrun.symm.trans h)
    exact ⟨n, rfl, fun j hj => (hgone j hj).2, hend⟩
  · rw [hrun] at h
    cases h
  · rw [hrun] at h
    cases h

end Simulation

end ArmRover
