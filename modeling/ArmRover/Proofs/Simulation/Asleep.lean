import ArmRover.Proofs.Scalar.Real
import ArmRover.Proofs.Simulation.Course

/-!
# A program that waits

While a program waits, frames pass and nothing else happens to it. In the first frame in which
what it waits for has come, it goes on.

* `Due.Met` — what a wait is for has come.
* `Simulation.Asleep` — a program that has waited for so many frames, `Simulation.Asleep.wakes` —
  until it goes on.
* `Stage.leads_of_waits` — from one stage over a wait to the next one,
  `Simulation.Asleep.serve_of_waits` — from one wait to the next one.
-/

namespace ArmRover

open ArmRover.Action

/-- What a wait is for has come, at some time and so many frames after the wait was opened. -/
def Due.Met (due : Due ℝ) (now : ℝ) (frames : Nat) : Prop :=
  match due with
  | .time deadline => deadline - Clock.slack ≤ now
  | .nextFrame => 0 < frames

namespace Simulation

/-- A program waits, alone, and so many frames have passed since the time `now`. -/
structure Asleep (s₀ : Station ℝ) (dt now : ℝ) (rest : Execution ℝ) (w : Wait ℝ) (j : Nat)
    (s : Simulation ℝ) : Prop where
  job : s.job = some (.waiting w.ticket rest)
  waits : s.scene.clock.waits = [w]
  now : s.scene.clock.now = now + j * dt
  frame : s.scene.clock.frame = w.since + j
  station : s₀.Aged s.scene.station

namespace Asleep

variable {cfg : Settings ℝ} {s₀ : Station ℝ} {dt now : ℝ} {rest : Execution ℝ} {w : Wait ℝ}
  {j : Nat} {s t : Simulation ℝ}

theorem running (h : Asleep s₀ dt now rest w j s) : s.running = true := by
  unfold Simulation.running
  rw [h.job]
  rfl

theorem isDue_iff (h : Asleep s₀ dt now rest w j s) :
    s.scene.clock.isDue w = true ↔ w.due.Met (now + j * dt) j := by
  unfold Clock.isDue Due.Met
  cases w.due with
  | time deadline => rw [h.now, decide_eq_true_eq]
  | nextFrame =>
    rw [h.frame, decide_eq_true_eq]
    omega

/-! ### The release of a wait -/

/-- A wait that is not due stays as it is. -/
theorem wake_early (cfg : Settings ℝ) (h : Asleep s₀ dt now rest w j s)
    (hnot : ¬ w.due.Met (now + j * dt) j) :
    s.wake cfg = (0, s) ∧ s.begunAwake cfg = [] := by
  have hdue : s.scene.clock.isDue w = false := Bool.eq_false_iff.mpr (mt h.isDue_iff.mp hnot)
  have hnone : s.scene.clock.due = [] := by
    unfold Clock.due
    rw [h.waits, List.filter_cons_of_neg (by simp [hdue]), List.filter_nil]
  have hrelease : s.scene.clock.release = s.scene.clock := by
    unfold Clock.release
    rw [h.waits, List.filter_cons_of_pos (by simp [hdue]), List.filter_nil, ← h.waits]
  have hreleased : s.released = s := by
    unfold released
    rw [hrelease]
  constructor
  · rw [wake_of_waiting cfg h.job, hnone, hreleased]
    rfl
  · unfold begunAwake
    rw [h.job, hnone]
    rfl

/-- A wait that is due is over, and the program goes on. -/
theorem wake_due (cfg : Settings ℝ) (h : Asleep s₀ dt now rest w j s)
    (hmet : w.due.Met (now + j * dt) j) :
    s.wake cfg = (1, s.released.advanceJob (Execution.resume cfg rest)) ∧
      s.begunAwake cfg =
        Execution.begun cfg rest.commands rest.steps rest.readings s.released.scene := by
  have hdue : s.scene.clock.due = [w] := by
    unfold Clock.due
    rw [h.waits, List.filter_cons_of_pos (h.isDue_iff.mpr hmet), List.filter_nil]
  have hany : s.scene.clock.due.any (·.ticket == w.ticket) = true := by
    rw [hdue]
    simp
  constructor
  · rw [wake_of_waiting cfg h.job, if_pos hany, hdue]
    rfl
  · unfold begunAwake
    rw [h.job]
    exact if_pos hany

theorem waits_released (h : Asleep s₀ dt now rest w j s) (hmet : w.due.Met (now + j * dt) j) :
    s.released.scene.clock.waits = [] := by
  show s.scene.clock.release.waits = []
  unfold Clock.release
  rw [h.waits, List.filter_cons_of_neg (by simp [h.isDue_iff.mpr hmet]), List.filter_nil]

theorem settle_early (cfg : Settings ℝ) (h : Asleep s₀ dt now rest w j s)
    (hnot : ¬ w.due.Met (now + j * dt) j) (fuel : Nat) :
    s.settle cfg fuel = s ∧ s.begunSettling cfg fuel = [] := by
  obtain ⟨hwake, hbegun⟩ := h.wake_early cfg hnot
  cases fuel with
  | zero => exact ⟨rfl, rfl⟩
  | succ fuel =>
    constructor
    · rw [settle, hwake]
    · rw [begunSettling, hbegun, hwake]
      rfl

theorem settle_due (cfg : Settings ℝ) (h : Asleep s₀ dt now rest w j s)
    (hmet : w.due.Met (now + j * dt) j) (fuel : Nat) :
    s.settle cfg (fuel + 1) = (Stage.mk s.released rest fuel).settled cfg ∧
      s.begunSettling cfg (fuel + 1) = (Stage.mk s.released rest fuel).log cfg := by
  obtain ⟨hwake, hbegun⟩ := h.wake_due cfg hmet
  constructor
  · rw [settle, hwake]
    rfl
  · rw [begunSettling, hbegun, hwake]
    rfl

/-! ### Frames -/

theorem pass (h : Asleep s₀ dt now rest w j s) (hpass : Simulation.pass cfg dt s = .ok () t) :
    Asleep s₀ dt now rest w (j + 1) t := by
  have hpassed := passed_of_pass hpass
  have hclock : t.scene.clock = s.scene.clock.advance dt := hpassed.clock
  refine ⟨hpassed.job.trans h.job, ?_, ?_, ?_, h.station.trans hpassed.station⟩
  · rw [hclock]
    exact h.waits
  · rw [hclock, Nat.cast_succ, add_one_mul, ← add_assoc, ← h.now]
    rfl
  · rw [hclock, ← add_assoc, ← h.frame]
    rfl

theorem passes (h : Asleep s₀ dt now rest w j s) (hsmooth : s.Smooth cfg dt) :
    ∃ t, Simulation.pass cfg dt s = .ok () t ∧ Asleep s₀ dt now rest w (j + 1) t := by
  obtain ⟨t, hpass⟩ := hsmooth 0 h.running
  exact ⟨t, hpass, h.pass hpass⟩

theorem serve_eq (cfg : Settings ℝ) (h : Asleep s₀ dt now rest w j s) :
    s.serve cfg = s.settle cfg (rest.sleepsLeft cfg + 2 + 1) ∧
      s.begunServing cfg = s.begunSettling cfg (rest.sleepsLeft cfg + 2 + 1) := by
  have hready : s.runReady cfg = s := by
    unfold runReady
    rw [h.job]
  have hbegun : s.begunReady cfg = [] := by
    unfold begunReady
    rw [h.job]
  have hsleeps : s.sleepsLeft cfg = rest.sleepsLeft cfg + 1 := by
    unfold sleepsLeft
    rw [h.job]
  constructor
  · unfold serve
    rw [hready, hsleeps]
  · unfold begunServing
    rw [hready, hbegun, hsleeps]
    rfl

/-- A program that waits goes on in the first frame in which what it waits for has come. -/
theorem wakes (h : Asleep s₀ dt now rest w j s) (hsmooth : s.Smooth cfg dt) (m : Nat)
    (hearly : ∀ i, j < i → i ≤ j + m → ¬ w.due.Met (now + i * dt) i)
    (hmet : w.due.Met (now + (j + m + 1 : Nat) * dt) (j + m + 1)) :
    ∃ t, Asleep s₀ dt now rest w (j + m + 1) t ∧
      s.frames cfg dt (m + 1) = (Stage.mk t.released rest (rest.sleepsLeft cfg + 2)).settled cfg ∧
      s.begun cfg dt (m + 1) = (Stage.mk t.released rest (rest.sleepsLeft cfg + 2)).log cfg ∧
      ∀ i < m + 1, (s.frames cfg dt i).running = true := by
  induction m generalizing j s with
  | zero =>
    obtain ⟨t, hpass, ht⟩ := h.passes hsmooth
    obtain ⟨hserve, hbegun⟩ := ht.serve_eq cfg
    obtain ⟨hsettle, hlog⟩ := ht.settle_due cfg hmet (rest.sleepsLeft cfg + 2)
    refine ⟨t, ht, ?_, ?_, ?_⟩
    · rw [frames_succ_of_pass hpass, frames, hserve, hsettle]
    · rw [begun_succ_of_pass hpass, begun, List.append_nil, hbegun, hlog]
    · intro i hi
      rw [Nat.lt_one_iff.mp hi]
      exact h.running
  | succ m ih =>
    -- the next frame comes too early, so that the program sleeps on
    obtain ⟨t, hpass, ht⟩ := h.passes hsmooth
    obtain ⟨hserve, hbegun⟩ := ht.serve_eq cfg
    obtain ⟨hsettle, hlog⟩ := ht.settle_early cfg
      (hearly (j + 1) (by omega) (by omega)) (rest.sleepsLeft cfg + 2 + 1)
    have hframe : s.frames cfg dt 1 = t := by
      rw [frames_succ_of_pass hpass, frames, hserve, hsettle]
    have hsum : j + 1 + m + 1 = j + (m + 1) + 1 := by omega
    obtain ⟨u, hu, hframes, hlogs, hrunning⟩ := ih ht (hframe ▸ hsmooth.frames 1)
      (fun i hi hi' => hearly i (by omega) (by omega)) (by rw [hsum]; exact hmet)
    refine ⟨u, hsum ▸ hu, ?_, ?_, ?_⟩
    · rw [Nat.add_comm, frames_add, hframe, hframes]
    · rw [begun_succ_of_pass hpass, hbegun, hlog, hserve, hsettle, hlogs]
      rfl
    · intro i hi
      cases i with
      | zero => exact h.running
      | succ i =>
        rw [Nat.add_comm, frames_add, hframe]
        exact hrunning i (by omega)

end Asleep

end Simulation

/-! ### From stage to stage -/

namespace Stage

variable {cfg : Settings ℝ} {s₀ : Station ℝ} {dt : ℝ} {p : Stage ℝ}

/-- A program that comes to a wait sleeps. -/
theorem asleep_of_waits (hfits : p.Fits cfg s₀) {ticket : Nat} {rest : Execution ℝ} {t : Scene ℝ}
    {due : Due ℝ} (hrun : Execution.resume cfg p.left p.sim.scene = .ok (.waiting ticket rest) t)
    (hticket : ticket = p.sim.scene.clock.issued)
    (hclock : t.clock = p.sim.scene.clock.register due) (hstation : s₀.Aged t.station) :
    Simulation.Asleep s₀ dt p.sim.scene.clock.now rest
      ⟨ticket, due, p.sim.scene.clock.frame⟩ 0 (p.next cfg) := by
  unfold next Simulation.advanceJob
  rw [hrun]
  refine ⟨rfl, ?_, ?_, ?_, hstation⟩
  · show t.clock.waits = _
    rw [hclock, Clock.waits_register, hfits.waits, ← hticket]
    rfl
  · show t.clock.now = _
    rw [hclock, Nat.cast_zero, zero_mul, add_zero]
    rfl
  · show t.clock.frame = _
    rw [hclock]
    rfl

/-- A program that comes to a wait goes on with the rest in the first frame in which what it waits
for has come. A wait that is over in the frame in which it is opened has to be one of the sleeps
that are counted. -/
theorem leads_of_waits (hfits : p.Fits cfg s₀) (hsmooth : (p.settled cfg).Smooth cfg dt)
    {ticket : Nat} {rest : Execution ℝ} {t : Scene ℝ} {due : Due ℝ}
    (hrun : Execution.resume cfg p.left p.sim.scene = .ok (.waiting ticket rest) t)
    (hbegun : Execution.begun cfg p.left.commands p.left.steps p.left.readings p.sim.scene = [])
    (hticket : ticket = p.sim.scene.clock.issued)
    (hclock : t.clock = p.sim.scene.clock.register due) (hstation : s₀.Aged t.station) (k : Nat)
    (hsleeps : k = 0 → rest.sleepsLeft cfg < p.left.sleepsLeft cfg)
    (hearly : ∀ i < k, ¬ due.Met (p.sim.scene.clock.now + i * dt) i)
    (hmet : due.Met (p.sim.scene.clock.now + k * dt) k) :
    ∃ q, q.left = rest ∧ q.Fits cfg s₀ ∧ Leads cfg dt p k [] q := by
  have hasleep : Simulation.Asleep s₀ dt p.sim.scene.clock.now rest _ 0 (p.next cfg) :=
    asleep_of_waits hfits hrun hticket hclock hstation
  cases k with
  | zero =>
    -- the wait is over before the frame is, so that one release is used up for it
    obtain ⟨fuel, hfuel, hleft⟩ : ∃ fuel, p.fuel = fuel + 1 ∧ rest.sleepsLeft cfg < fuel := by
      have hsleeps := hsleeps rfl
      rcases hfits.fuel with hfuel | hfuel
      · exact ⟨p.fuel - 1, by omega, by omega⟩
      · have hcount : (p.next cfg).sleepsLeft cfg = rest.sleepsLeft cfg + 1 := by
          unfold Simulation.sleepsLeft
          rw [hasleep.job]
        exact ⟨rest.sleepsLeft cfg + 2, by omega, by omega⟩
    obtain ⟨hsettle, hlog⟩ := hasleep.settle_due cfg hmet fuel
    refine ⟨⟨(p.next cfg).released, rest, fuel⟩, rfl,
      ⟨hasleep.waits_released hmet, hasleep.station, .inl hleft⟩, ?_, ?_,
      fun j hj => absurd hj (Nat.not_lt_zero j), hasleep.now⟩
    · rw [Simulation.frames, settled, hfuel, hsettle]
    · rw [Simulation.begun, List.append_nil, log, hbegun, hfuel, hlog]
  | succ m =>
    have hzero : ¬ due.Met (p.sim.scene.clock.now + (0 : Nat) * dt) 0 :=
      hearly 0 (Nat.succ_pos m)
    obtain ⟨hsettle, hlog⟩ := hasleep.settle_early cfg hzero p.fuel
    have hsettled : p.settled cfg = p.next cfg := hsettle
    obtain ⟨u, hu, hframes, hlogs, hrunning⟩ := hasleep.wakes (hsettled ▸ hsmooth) m
      (fun i _ hi => hearly i (by omega)) (by rw [Nat.zero_add]; exact hmet)
    rw [Nat.zero_add] at hu
    have hfuel : rest.sleepsLeft cfg < rest.sleepsLeft cfg + 2 :=
      Nat.lt_add_of_pos_right Nat.two_pos
    refine ⟨⟨u.released, rest, rest.sleepsLeft cfg + 2⟩, rfl,
      ⟨hu.waits_released hmet, hu.station, .inl hfuel⟩, ?_, ?_, ?_, hu.now⟩
    · rw [hsettled, hframes]
    · rw [log, hbegun, hlog, hsettled, hlogs]
      rfl
    · rw [hsettled]
      exact hrunning

end Stage

/-- A program that comes from one wait to another one, which does not end in the same frame, waits
there at the end of the frame. -/
theorem Simulation.Asleep.serve_of_waits {cfg : Settings ℝ} {s₀ : Station ℝ} {dt now : ℝ}
    {rest next : Execution ℝ} {w : Wait ℝ} {j ticket : Nat} {s : Simulation ℝ} {t : Scene ℝ}
    {due : Due ℝ} (h : Asleep s₀ dt now rest w j s) (hmet : w.due.Met (now + j * dt) j)
    (hrun : Execution.resume cfg rest s.released.scene = .ok (.waiting ticket next) t)
    (hticket : ticket = s.scene.clock.issued)
    (hclock : t.clock = s.released.scene.clock.register due)
    (hnot : ¬ due.Met s.scene.clock.now 0) :
    s.serve cfg = ⟨t, s.world, some (.waiting ticket next)⟩ := by
  let p : Stage ℝ := ⟨s.released, rest, rest.sleepsLeft cfg + 2⟩
  have hnext : p.next cfg = ⟨t, s.world, some (.waiting ticket next)⟩ := by
    unfold Stage.next advanceJob
    rw [hrun]
    rfl
  have hp : p.Fits cfg s.scene.station :=
    ⟨h.waits_released hmet, .refl _, .inl (Nat.lt_add_of_pos_right Nat.two_pos)⟩
  have haged : s.scene.station.Aged t.station :=
    (Execution.preserves_run cfg rest.commands rest.steps rest.readings).of_ok hrun (.refl _)
  have hasleep : Asleep _ dt s.scene.clock.now next _ 0 (p.next cfg) :=
    Stage.asleep_of_waits hp hrun hticket hclock haged
  have hearly : ¬ due.Met (s.scene.clock.now + (0 : Nat) * dt) 0 := by
    rw [Nat.cast_zero, zero_mul, add_zero]
    exact hnot
  rw [(h.serve_eq cfg).1, (h.settle_due cfg hmet _).1]
  exact ((hasleep.settle_early cfg hearly _).1).trans hnext

end ArmRover
