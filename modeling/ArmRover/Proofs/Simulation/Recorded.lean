import ArmRover.Proofs.Execution.Snapshots
import ArmRover.Proofs.Simulation.Course

/-!
# Records of a program for the arm

Whatever a stretch of a program leaves in a record, frames of any lengths leave what the stretches
in them do, one after the other. Between two stretches time passes, but what is asked of the arm
stays as it is; so what every stretch keeps of the record, of what is left of the program, of a view
of the arm and of the time holds at every wait, and in the end.

* `Simulation.recorded` — the record of frames.
* `Watch` — something that is watched, `Recorder` — stretches keep it, `Simulation.Recorded` — what
  therefore holds, `Recorder.recorded_after` — after any frames.
-/

namespace ArmRover

open ArmRover.Action

/-! ### Records -/

section Records

variable {α γ : Type} [Scalar α]

/-- What there is of a program for a robot before its first step. -/
def Execution.initial (cfg : Settings α) (robot : Robot) (commands : List (Command α)) :
    Execution α :=
  ⟨[Step.pausing cfg.pauses.reset], commands.filter fun c => c.robot == robot, []⟩

namespace Simulation

variable (record : Execution α → Scene α → List γ) (cfg : Settings α)

/-- The record of the first stretch of a program. -/
def recordedReady (s : Simulation α) : List γ :=
  match s.job with
  | some (.fresh commands) =>
    record (.initial cfg s.scene.station.active commands) (s.scene.onStation (·.home cfg.toRig))
  | _ => []

/-- The record of a stretch after a wait, if its time has come. -/
def recordedAwake (s : Simulation α) : List γ :=
  match s.job with
  | some (.waiting ticket rest) =>
    if s.scene.clock.due.any (·.ticket == ticket) then record rest s.released.scene else []
  | _ => []

/-- The record of the stretches until no wait is due. -/
def recordedSettling : Nat → Simulation α → List γ
  | 0, _ => []
  | n + 1, s =>
    s.recordedAwake record ++ match s.wake cfg with
      | (0, _) => []
      | (_ + 1, t) => recordedSettling n t

/-- The record of the second half of a frame. -/
def recordedServing (s : Simulation α) : List γ :=
  s.recordedReady record cfg ++
    (s.runReady cfg).recordedSettling record cfg ((s.runReady cfg).sleepsLeft cfg + 2)

/-- The record of a frame. -/
def recordedFrame (dt : α) (s : Simulation α) : List γ :=
  match pass cfg dt s with
  | .ok _ t => t.recordedServing record cfg
  | .error .. => []

/-- The record of frames of some lengths, one after the other. -/
def recorded : List α → Simulation α → List γ
  | [], _ => []
  | dt :: rest, s => s.recordedFrame record cfg dt ++ recorded rest (s.ask cfg (.frame dt)).2

theorem runReady_of_fresh {s : Simulation α} {commands : List (Command α)}
    (h : s.job = some (.fresh commands)) :
    s.runReady cfg = { s with scene := s.scene.onStation (·.home cfg.toRig) }.advanceJob
      (Execution.resume cfg (.initial cfg s.scene.station.active commands)) := by
  unfold runReady
  rw [h]
  rfl

theorem recordedReady_of_fresh {s : Simulation α} {commands : List (Command α)}
    (h : s.job = some (.fresh commands)) :
    s.recordedReady record cfg = record (.initial cfg s.scene.station.active commands)
      (s.scene.onStation (·.home cfg.toRig)) := by
  unfold recordedReady
  rw [h]

end Simulation

end Records

/-! ### What stretches keep -/

/-- Something that is watched over a program for the arm: a view of the station, a record, and what
is to hold of both. -/
structure Watch (β γ : Type) where
  view : Station ℝ → β
  /-- What a stretch leaves in the record. -/
  record : Execution ℝ → Scene ℝ → List γ
  /-- What holds of the record, of what is left of the program, of the view and of the time. -/
  Keeps : List γ → Execution ℝ → β → ℝ → Prop
  /-- What it comes to when the program is finished. -/
  Ends : List γ → β → Prop
  /-- What it comes to when the program fails. -/
  Fails : List γ → Prop

variable {β γ : Type} {cfg : Settings ℝ} {watch : Watch β γ}

/-- Every stretch of a program keeps what is watched, and time and the way home do not change the
view. -/
structure Recorder (cfg : Settings ℝ) (watch : Watch β γ) : Prop where
  unmoved (dt : ℝ) (s : Simulation ℝ) :
    watch.view (final (Simulation.pass cfg dt s)).scene.station = watch.view s.scene.station
  homed (s t : Station ℝ) : watch.view (s.homeArm cfg.toRig) = watch.view (t.homeArm cfg.toRig)
  later {log : List γ} {rest : Execution ℝ} {b : β} {now now' : ℝ} : now ≤ now' →
    watch.Keeps log rest b now → watch.Keeps log rest b now'
  waits {log : List γ} {rest next : Execution ℝ} {s t : Scene ℝ} {ticket : Nat} :
    Execution.resume cfg rest s = .ok (.waiting ticket next) t →
    watch.Keeps log rest (watch.view s.station) s.clock.now →
    watch.Keeps (log ++ watch.record rest s) next (watch.view t.station) t.clock.now
  ends {log : List γ} {rest : Execution ℝ} {s t : Scene ℝ} {readings : List (Value ℝ)} :
    Execution.resume cfg rest s = .ok (.done readings) t →
    watch.Keeps log rest (watch.view s.station) s.clock.now →
    watch.Ends (log ++ watch.record rest s) (watch.view t.station)
  fails {log : List γ} {rest : Execution ℝ} {s t : Scene ℝ} {fault : Fault ℝ} :
    Execution.resume cfg rest s = .error fault t →
    watch.Keeps log rest (watch.view s.station) s.clock.now →
    watch.Fails (log ++ watch.record rest s)

namespace Simulation

/-- What holds of a program for the arm that nobody cancels, whether it waits or has come to its
end. One that has not run yet begins with the arm at home. -/
def Recorded (cfg : Settings ℝ) (watch : Watch β γ) (log : List γ) (s : Simulation ℝ) : Prop :=
  match s.job with
  | some (.fresh commands) => s.scene.station.active = .arm ∧
    watch.Keeps log (.initial cfg .arm commands) (watch.view (s.scene.station.homeArm cfg.toRig))
      s.scene.clock.now
  | some (.waiting _ rest) =>
    watch.Keeps log rest (watch.view s.scene.station) s.scene.clock.now
  | some (.finished _) => watch.Ends log (watch.view s.scene.station)
  | some (.failed _) => watch.Fails log
  | _ => False

/-- The first half of a frame leaves the posture as it is. -/
theorem posture_pass {α : Type} [Scalar α] (cfg : Settings α) (dt : α) (s : Simulation α) :
    (final (pass cfg dt s)).scene.station.posture = s.scene.station.posture :=
  pass_preserves (P := fun t => t.posture = s.scene.station.posture)
    (Station.lasting_posture _) cfg dt
    (Sensors.preserves_refresh (Sensors.preserves_lookAhead (fun _ h => h) fun _ _ h => h)
      (fun _ h => h) (Sensors.preserves_scanAround (fun _ _ h => h) fun _ _ h => h)) rfl

end Simulation

namespace Recorder

variable (h : Recorder cfg watch)
include h

variable {log : List γ} {s : Simulation ℝ}

theorem pass {dt : ℝ} (hdt : 0 ≤ dt) (hs : s.Recorded cfg watch log) :
    (final (Simulation.pass cfg dt s)).Recorded cfg watch log := by
  have hpassed := Simulation.passed cfg dt s
  have hlater : s.scene.clock.now ≤ (final (Simulation.pass cfg dt s)).scene.clock.now := by
    rw [hpassed.clock]
    exact le_add_of_nonneg_right hdt
  unfold Simulation.Recorded at hs ⊢
  rw [hpassed.job, h.unmoved, hpassed.station.active]
  cases hjob : s.job with
  | none =>
    rw [hjob] at hs
    exact hs
  | some job =>
    rw [hjob] at hs
    cases job with
    | fresh commands => exact ⟨hs.1, h.later hlater (h.homed s.scene.station _ ▸ hs.2)⟩
    | waiting ticket rest => exact h.later hlater hs
    | _ => exact hs

/-- A stretch adds to the record. -/
theorem advanceJob {rest : Execution ℝ}
    (hs : watch.Keeps log rest (watch.view s.scene.station) s.scene.clock.now) :
    (s.advanceJob (Execution.resume cfg rest)).Recorded cfg watch
      (log ++ watch.record rest s.scene) := by
  unfold Simulation.advanceJob Simulation.Recorded
  cases hrun : Execution.resume cfg rest s.scene with
  | error fault scene => exact h.fails hrun hs
  | ok progress scene =>
    cases progress with
    | waiting ticket next => exact h.waits hrun hs
    | done readings => exact h.ends hrun hs

theorem runReady (hs : s.Recorded cfg watch log) :
    (s.runReady cfg).Recorded cfg watch (log ++ s.recordedReady watch.record cfg) := by
  by_cases hfresh : ∃ commands, s.job = some (.fresh commands)
  · obtain ⟨commands, hjob⟩ := hfresh
    rw [Simulation.runReady_of_fresh cfg hjob,
      Simulation.recordedReady_of_fresh watch.record cfg hjob]
    unfold Simulation.Recorded at hs
    rw [hjob] at hs
    obtain ⟨hactive, hkeeps⟩ := hs
    have hhome : s.scene.station.home cfg.toRig = s.scene.station.homeArm cfg.toRig := by
      unfold Station.home
      rw [hactive]
    rw [hactive]
    exact h.advanceJob (s := { s with scene := s.scene.onStation (·.home cfg.toRig) })
      (congrArg watch.view hhome ▸ hkeeps)
  · have hnone : s.recordedReady watch.record cfg = [] := by
      unfold Simulation.recordedReady
      split
      · next hjob => exact absurd ⟨_, hjob⟩ hfresh
      · rfl
    rw [hnone, List.append_nil]
    unfold Simulation.runReady
    split
    · next hjob => exact absurd ⟨_, hjob⟩ hfresh
    · next hjob =>
      unfold Simulation.Recorded at hs
      rw [hjob] at hs
      exact hs.elim
    · exact hs

theorem wake (hs : s.Recorded cfg watch log) :
    (s.wake cfg).2.Recorded cfg watch (log ++ s.recordedAwake watch.record) := by
  unfold Simulation.recordedAwake
  by_cases hwaiting : ∃ ticket rest, s.job = some (.waiting ticket rest)
  · obtain ⟨ticket, rest, hjob⟩ := hwaiting
    rw [Simulation.wake_of_waiting cfg hjob, hjob]
    dsimp only
    have hreleased : watch.Keeps log rest (watch.view s.released.scene.station)
        s.released.scene.clock.now := by
      unfold Simulation.Recorded at hs
      rw [hjob] at hs
      exact hs
    split
    · exact h.advanceJob hreleased
    · rw [List.append_nil]
      unfold Simulation.Recorded
      rw [show s.released.job = some (.waiting ticket rest) from hjob]
      exact hreleased
  · rw [Simulation.wake_of_not_waiting cfg fun ticket rest hjob => hwaiting ⟨ticket, rest, hjob⟩]
    split
    · next hjob => exact absurd ⟨_, _, hjob⟩ hwaiting
    · rw [List.append_nil]
      exact hs

theorem settle (fuel : Nat) (hs : s.Recorded cfg watch log) :
    (s.settle cfg fuel).Recorded cfg watch
      (log ++ s.recordedSettling watch.record cfg fuel) := by
  induction fuel generalizing log s with
  | zero =>
    rw [Simulation.recordedSettling, List.append_nil]
    exact hs
  | succ fuel ih =>
    have hwake := h.wake hs
    unfold Simulation.settle Simulation.recordedSettling
    rw [← List.append_assoc]
    generalize s.wake cfg = woken at hwake ⊢
    obtain ⟨released, t⟩ := woken
    cases released with
    | zero =>
      rw [List.append_nil]
      exact hwake
    | succ released => exact ih hwake

theorem serve (hs : s.Recorded cfg watch log) :
    (s.serve cfg).Recorded cfg watch (log ++ s.recordedServing watch.record cfg) := by
  unfold Simulation.recordedServing
  rw [← List.append_assoc]
  exact h.settle _ (h.runReady hs)

theorem frame {dt : ℝ} (hdt : 0 ≤ dt) (hs : s.Recorded cfg watch log) :
    (s.ask cfg (.frame dt)).2.Recorded cfg watch
      (log ++ s.recordedFrame watch.record cfg dt) := by
  have hpass := h.pass hdt hs
  unfold Simulation.recordedFrame
  cases hrun : Simulation.pass cfg dt s with
  | ok _ t =>
    rw [hrun] at hpass
    rw [Simulation.ask_frame hrun]
    exact h.serve hpass
  | error fault t =>
    rw [hrun] at hpass
    rw [Simulation.ask_frame_error hrun, List.append_nil]
    exact hpass

/-- What every stretch keeps holds after frames of any lengths. -/
theorem recorded_after {times : List ℝ} (htimes : ∀ dt ∈ times, 0 ≤ dt)
    (hs : s.Recorded cfg watch log) :
    (s.after cfg (times.map .frame)).Recorded cfg watch
      (log ++ s.recorded watch.record cfg times) := by
  induction times generalizing log s with
  | nil =>
    rw [Simulation.recorded, List.append_nil]
    exact hs
  | cons dt rest ih =>
    obtain ⟨hdt, hrest⟩ := List.forall_mem_cons.mp htimes
    rw [Simulation.recorded, ← List.append_assoc]
    exact ih hrest (h.frame hdt hs)

/-- What every stretch keeps from the start on comes to its end when the program does. -/
theorem ends_of_finished {commands : List (Command ℝ)} {times : List ℝ}
    {readings : List (Value ℝ)} (hactive : s.scene.station.active = .arm) (hidle : s.running = false)
    (htimes : ∀ dt ∈ times, 0 ≤ dt)
    (hstart : watch.Keeps [] (.initial cfg .arm commands)
      (watch.view (s.scene.station.homeArm cfg.toRig)) s.scene.clock.now)
    (hend : ((s.ask cfg (.start commands)).2.after cfg (times.map .frame)).job =
      some (.finished readings)) :
    watch.Ends ((s.ask cfg (.start commands)).2.recorded watch.record cfg times)
      (watch.view ((s.ask cfg (.start commands)).2.after cfg (times.map .frame)).scene.station) := by
  have hfresh : (s.ask cfg (.start commands)).2.Recorded cfg watch [] := by
    rw [Simulation.ask_start cfg hidle]
    exact ⟨hactive, hstart⟩
  have hrecorded := h.recorded_after htimes hfresh
  unfold Simulation.Recorded at hrecorded
  rw [hend, List.nil_append] at hrecorded
  exact hrecorded

end Recorder

end ArmRover
