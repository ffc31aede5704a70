import ArmRover.Proofs.Execution.Effect
import ArmRover.Proofs.Simulation.Frame

/-!
# The course of a program

Frames of one length, one after the other, and what a program does in them: which commands begin,
and how it gets from one stage to a later one.

* `Simulation.frames` — so many frames, `Simulation.begun` — the commands that begin in them.
* `Simulation.running_frames_of_le` — a program that has come to its end does not run again.
* `Simulation.Smooth` — simulations in which time can pass as long as the program runs.
* `Stage` — a program between two steps, `Stage.settled` — the simulation at the end of the frame.
* `Stage.Leads` — a program gets from one stage to another one in so many frames,
  `Stage.Leads.trans` — and on from there.
-/

namespace ArmRover

open ArmRover.Action

namespace Simulation

variable {α : Type} [Scalar α]

/-- The simulation after so many frames of one length. -/
def frames (cfg : Settings α) (dt : α) : Nat → Simulation α → Simulation α
  | 0, s => s
  | n + 1, s => frames cfg dt n (final (frame cfg dt s))

theorem frames_add (cfg : Settings α) (dt : α) (m n : Nat) (s : Simulation α) :
    s.frames cfg dt (m + n) = (s.frames cfg dt m).frames cfg dt n := by
  induction m generalizing s with
  | zero => rw [Nat.zero_add, frames]
  | succ m ih => rw [Nat.succ_add, frames, frames, ih]

theorem frames_succ_last (cfg : Settings α) (dt : α) (n : Nat) (s : Simulation α) :
    s.frames cfg dt (n + 1) = final (frame cfg dt (s.frames cfg dt n)) :=
  frames_add cfg dt n 1 s

theorem frames_eq_after (cfg : Settings α) (dt : α) (n : Nat) (s : Simulation α) :
    s.frames cfg dt n = s.after cfg ((List.replicate n dt).map .frame) := by
  induction n generalizing s with
  | zero => rfl
  | succ n ih =>
    rw [frames, ih, final_frame]
    rfl

section Running

variable {cfg : Settings α} {dt : α} {s : Simulation α}

theorem job_frames_of_not_running (cfg : Settings α) (dt : α) (h : s.running = false) (n : Nat) :
    (s.frames cfg dt n).job = s.job := by
  induction n with
  | zero => rfl
  | succ n ih =>
    rw [frames_succ_last, job_frame_of_not_running cfg dt ((running_congr ih).trans h), ih]

/-- A program that runs after frames has run before them. -/
theorem running_of_frames {n : Nat} (h : (s.frames cfg dt n).running = true) :
    s.running = true := by
  by_contra hnot
  have hjob := job_frames_of_not_running cfg dt (Bool.eq_false_iff.mpr hnot) n
  exact hnot ((running_congr hjob).symm.trans h)

theorem running_frames_of_le {m n : Nat} (hmn : m ≤ n)
    (h : (s.frames cfg dt n).running = true) : (s.frames cfg dt m).running = true := by
  obtain ⟨k, rfl⟩ := Nat.exists_eq_add_of_le hmn
  rw [frames_add] at h
  exact running_of_frames h

end Running

/-- Time can pass without a fault as long as the program runs. -/
def Smooth (cfg : Settings α) (dt : α) (s : Simulation α) : Prop :=
  ∀ n, (s.frames cfg dt n).running = true → ∃ t, pass cfg dt (s.frames cfg dt n) = .ok () t

theorem Smooth.frames {cfg : Settings α} {dt : α} {s : Simulation α} (h : s.Smooth cfg dt)
    (m : Nat) : (s.frames cfg dt m).Smooth cfg dt := by
  intro n hrunning
  rw [← frames_add] at hrunning ⊢
  exact h (m + n) hrunning

/-! ### The commands that begin -/

/-- The commands that begin when a program runs for the first time, each with the scene in which it
begins. -/
def begunReady (cfg : Settings α) (s : Simulation α) : List (Command α × Scene α) :=
  match s.job with
  | some (.fresh commands) =>
    Execution.begun cfg (commands.filter fun c => c.robot == s.scene.station.active)
      [Step.pausing cfg.pauses.reset] [] (s.scene.onStation (·.home cfg.toRig))
  | _ => []

/-- The commands that begin when the waits whose time has come are released. -/
def begunAwake (cfg : Settings α) (s : Simulation α) : List (Command α × Scene α) :=
  match s.job with
  | some (.waiting ticket rest) =>
    if s.scene.clock.due.any (·.ticket == ticket) then
      Execution.begun cfg rest.commands rest.steps rest.readings s.released.scene
    else []
  | _ => []

/-- The commands that begin while waits are released until none is due. -/
def begunSettling (cfg : Settings α) : Nat → Simulation α → List (Command α × Scene α)
  | 0, _ => []
  | n + 1, s =>
    s.begunAwake cfg ++ match s.wake cfg with
      | (0, _) => []
      | (_ + 1, t) => begunSettling cfg n t

/-- The commands that begin in the second half of a frame. -/
def begunServing (cfg : Settings α) (s : Simulation α) : List (Command α × Scene α) :=
  s.begunReady cfg ++
    (s.runReady cfg).begunSettling cfg ((s.runReady cfg).sleepsLeft cfg + 2)

/-- The commands that begin in so many frames, in order, each with the scene in which it begins. -/
def begun (cfg : Settings α) (dt : α) : Nat → Simulation α → List (Command α × Scene α)
  | 0, _ => []
  | n + 1, s =>
    (match pass cfg dt s with
      | .ok _ t => t.begunServing cfg
      | .error _ _ => []) ++ begun cfg dt n (final (frame cfg dt s))

theorem begun_add (cfg : Settings α) (dt : α) (m n : Nat) (s : Simulation α) :
    s.begun cfg dt (m + n) = s.begun cfg dt m ++ (s.frames cfg dt m).begun cfg dt n := by
  induction m generalizing s with
  | zero => rw [Nat.zero_add, frames, begun, List.nil_append]
  | succ m ih => rw [Nat.succ_add, begun, begun, frames, ih, List.append_assoc]

/-- Where nobody waits nothing more happens in a frame. -/
theorem settle_of_no_waits (cfg : Settings α) {s : Simulation α}
    (hjob : ∀ ticket rest, s.job ≠ some (.waiting ticket rest))
    (hwaits : s.scene.clock.waits = []) (fuel : Nat) :
    s.settle cfg fuel = s ∧ s.begunSettling cfg fuel = [] := by
  have hwake := wake_of_no_waits cfg hjob hwaits
  have hbegun : s.begunAwake cfg = [] := by
    unfold begunAwake
    split
    · next hwaiting => exact absurd hwaiting (hjob _ _)
    · rfl
  cases fuel with
  | zero => exact ⟨rfl, rfl⟩
  | succ fuel =>
    constructor
    · rw [settle, hwake]
    · rw [begunSettling, hwake, hbegun]
      rfl

section Passing

variable {cfg : Settings α} {dt : α} {s t : Simulation α}

theorem frames_succ_of_pass (h : pass cfg dt s = .ok () t) (n : Nat) :
    s.frames cfg dt (n + 1) = (t.serve cfg).frames cfg dt n := by
  rw [frames, frame_of_pass h]
  rfl

theorem Smooth.serve (h : s.Smooth cfg dt) (hpass : pass cfg dt s = .ok () t) :
    (t.serve cfg).Smooth cfg dt := by
  have hnext := h.frames 1
  rw [frames_succ_of_pass hpass, Simulation.frames] at hnext
  exact hnext

theorem begun_succ_of_pass (h : pass cfg dt s = .ok () t) (n : Nat) :
    s.begun cfg dt (n + 1) = t.begunServing cfg ++ (t.serve cfg).begun cfg dt n := by
  rw [begun, frame_of_pass h, h]
  rfl

end Passing

end Simulation

/-! ### Stages -/

/-- A program between two steps, in the middle of a frame: the simulation, what is left of the
program, and how many releases are left for the frame. -/
structure Stage (α : Type) where
  sim : Simulation α
  left : Execution α
  fuel : Nat

namespace Stage

variable {α : Type} [Scalar α]

/-- The simulation at the next wait of the program, or at its end. -/
def next (cfg : Settings α) (p : Stage α) : Simulation α :=
  p.sim.advanceJob (Execution.resume cfg p.left)

/-- The simulation at the end of the frame. -/
def settled (cfg : Settings α) (p : Stage α) : Simulation α := (p.next cfg).settle cfg p.fuel

/-- The commands that begin between the stage and the end of the frame. -/
def log (cfg : Settings α) (p : Stage α) : List (Command α × Scene α) :=
  Execution.begun cfg p.left.commands p.left.steps p.left.readings p.sim.scene ++
    (p.next cfg).begunSettling cfg p.fuel

/-- From one stage the program gets to another one in so many frames, and the commands of a log
begin on the way. -/
structure Leads (cfg : Settings ℝ) (dt : ℝ) (p : Stage ℝ) (k : Nat)
    (log : List (Command ℝ × Scene ℝ)) (q : Stage ℝ) : Prop where
  settled : (p.settled cfg).frames cfg dt k = q.settled cfg
  begun : p.log cfg ++ (p.settled cfg).begun cfg dt k = log ++ q.log cfg
  running : ∀ j < k, ((p.settled cfg).frames cfg dt j).running = true
  now : q.sim.scene.clock.now = p.sim.scene.clock.now + k * dt

variable {cfg : Settings ℝ} {dt : ℝ} {p q r : Stage ℝ} {k m : Nat}
  {log log' : List (Command ℝ × Scene ℝ)}

theorem Leads.refl (p : Stage ℝ) : Leads cfg dt p 0 [] p where
  settled := rfl
  begun := List.append_nil _
  running := fun j hj => absurd hj (Nat.not_lt_zero j)
  now := by simp

theorem Leads.trans (hpq : Leads cfg dt p k log q) (hqr : Leads cfg dt q m log' r) :
    Leads cfg dt p (k + m) (log ++ log') r where
  settled := by rw [Simulation.frames_add, hpq.settled, hqr.settled]
  begun := by
    rw [Simulation.begun_add, ← List.append_assoc, hpq.begun, List.append_assoc, hpq.settled,
      hqr.begun, List.append_assoc]
  running := by
    intro j hj
    by_cases hjk : j < k
    · exact hpq.running j hjk
    · obtain ⟨i, rfl⟩ := Nat.exists_eq_add_of_le (Nat.le_of_not_lt hjk)
      rw [Simulation.frames_add, hpq.settled]
      exact hqr.running i (by omega)
  now := by
    rw [hqr.now, hpq.now, Nat.cast_add]
    ring

theorem Leads.smooth (h : Leads cfg dt p k log q) (hsmooth : (p.settled cfg).Smooth cfg dt) :
    (q.settled cfg).Smooth cfg dt :=
  h.settled ▸ hsmooth.frames k

/-- A stage can be gone on from: nobody else waits, and there are enough releases left. -/
structure Fits (cfg : Settings ℝ) (s₀ : Station ℝ) (p : Stage ℝ) : Prop where
  waits : p.sim.scene.clock.waits = []
  station : s₀.Aged p.sim.scene.station
  fuel : p.left.sleepsLeft cfg < p.fuel ∨ p.fuel = (p.next cfg).sleepsLeft cfg + 2

/-- A stage in the same stretch of the program, before its next wait, with what begins in
between. -/
theorem leads_of_resume (dt : ℝ) {s₀ : Station ℝ} (hfits : p.Fits cfg s₀) {t : Scene ℝ}
    {left : Execution ℝ}
    (hrun : Execution.resume cfg p.left p.sim.scene = Execution.resume cfg left t)
    (hbegun : Execution.begun cfg p.left.commands p.left.steps p.left.readings p.sim.scene =
      log ++ Execution.begun cfg left.commands left.steps left.readings t)
    (hclock : t.clock = p.sim.scene.clock) (hstation : s₀.Aged t.station)
    (hsleeps : left.sleepsLeft cfg ≤ p.left.sleepsLeft cfg) :
    ∃ q, q.left = left ∧ q.Fits cfg s₀ ∧ Leads cfg dt p 0 log q := by
  let q : Stage ℝ := ⟨{ p.sim with scene := t }, left, p.fuel⟩
  -- both come to the same next wait, so that the rest of the frame is the same
  have hnext : q.next cfg = p.next cfg := by
    unfold next Simulation.advanceJob
    rw [hrun]
  have hsettled : p.settled cfg = q.settled cfg := by
    unfold settled
    rw [hnext]
  refine ⟨q, rfl, ⟨?_, hstation, ?_⟩, hsettled, ?_, fun j hj => absurd hj (Nat.not_lt_zero j), ?_⟩
  · show t.clock.waits = []
    rw [hclock]
    exact hfits.waits
  · rw [hnext]
    exact hfits.fuel.imp_left hsleeps.trans_lt
  · rw [Simulation.begun, List.append_nil]
    unfold Stage.log
    rw [hbegun, hnext, List.append_assoc]
  · show t.clock.now = _
    rw [hclock, Nat.cast_zero, zero_mul, add_zero]

end Stage

end ArmRover
