import ArmRover.Proofs.Execution.Sleeps
import ArmRover.Proofs.Simulation.Frame

/-!
# A frame comes to its end

A program that wakes up within a frame may wait again for a time that has already come, so due
waits are released again and again until there is none. That ends, however short the sleeps are:
once waits have been released in a frame, the only one that can be due is a sleep of the program,
and it has only so many of them ahead.

* `Simulation.Settles` — releasing waits until none is due, without a limit on their number,
  `Simulation.settle_of_settles` — a limit that is not reached does not show.
* `Simulation.sleepsAhead` — the sleeps that a program has before it.
* `Simulation.Dozes` — what can be due after a release, `Simulation.dozes_wake` — each release that
  wakes the program uses up a sleep.
* `Simulation.exists_settles` — the releases come to an end, `Simulation.frame_ends` — every frame
  does, and how many releases it takes.
-/

namespace ArmRover

variable {α : Type} [Scalar α]

open ArmRover.Action

/-! ### The clock -/

namespace Clock

/-- After a release no wait is due. -/
theorem due_release (c : Clock α) : c.release.due = [] := by
  show (c.waits.filter fun w => !c.isDue w).filter c.isDue = []
  rw [List.filter_filter]
  refine List.filter_eq_nil_iff.mpr fun w _ => ?_
  cases c.isDue w <;> exact Bool.false_ne_true

/-- A wait that is opened is due at once only if it is a sleep. -/
theorem due_register (c : Clock α) (d : Due α) (h : c.due = []) :
    (c.register d).due = [] ∨
      (c.register d).due = [⟨c.issued, d, c.frame⟩] ∧ ∃ deadline, d = .time deadline := by
  have happend : (c.register d).due = c.due ++ [⟨c.issued, d, c.frame⟩].filter c.isDue :=
    List.filter_append _ _
  rw [happend, h, List.nil_append]
  cases hdue : c.isDue ⟨c.issued, d, c.frame⟩ with
  | false => exact .inl (List.filter_cons_of_neg (Bool.eq_false_iff.mp hdue))
  | true =>
    refine .inr ⟨List.filter_cons_of_pos hdue, ?_⟩
    cases d with
    | time deadline => exact ⟨deadline, rfl⟩
    | nextFrame => exact absurd (of_decide_eq_true hdue) (Nat.lt_irrefl _)

end Clock

namespace Simulation

variable {cfg : Settings α} {s t : Simulation α} {calls : List (Simulation α)}

/-! ### Releasing without a limit -/

/-- Waits are released until none is due. The list has the simulation before each release. -/
inductive Settles (cfg : Settings α) :
    Simulation α → List (Simulation α) → Simulation α → Prop where
  | last {s t : Simulation α} : s.wake cfg = (0, t) → Settles cfg s [s] t
  | again {s t u : Simulation α} {n : Nat} {calls : List (Simulation α)} :
      s.wake cfg = (n + 1, t) → Settles cfg t calls u → Settles cfg s (s :: calls) u

theorem settle_of_settles (h : Settles cfg s calls t) {fuel : Nat} (hfuel : calls.length ≤ fuel) :
    s.settle cfg fuel = t := by
  induction h generalizing fuel with
  | last hwake =>
    obtain ⟨fuel, rfl⟩ := Nat.exists_eq_succ_of_ne_zero (Nat.pos_iff_ne_zero.mp hfuel)
    rw [settle, hwake]
  | again hwake _ ih =>
    obtain ⟨fuel, rfl⟩ := Nat.exists_eq_succ_of_ne_zero (Nat.ne_zero_of_lt hfuel)
    rw [settle, hwake]
    exact ih (Nat.le_of_succ_le_succ hfuel)

/-! ### What can be due -/

/-- How many sleeps the program has before it. The sleep that it may be in does not count. -/
def sleepsAhead (cfg : Settings α) (s : Simulation α) : Nat :=
  match s.job with
  | some (.fresh commands) =>
    Execution.commandsSleeps cfg (commands.filter fun c => c.robot == s.scene.station.active) + 1
  | some (.waiting _ rest) => rest.sleepsLeft cfg
  | _ => 0

/-- Whether a release ends a wait for the next frame that the program is in. It waits for the next
frame only while a joint turns. -/
def endsTurn (s : Simulation α) : Bool :=
  match s.job with
  | some (.waiting ticket _) =>
    s.scene.clock.due.any fun w => w.ticket == ticket && w.due.sleeps == 0
  | _ => false

/-- At most one wait is due, a sleep that the program is in. -/
def Dozes (s : Simulation α) : Prop :=
  s.scene.clock.due = [] ∨ ∃ ticket rest deadline since, s.job = some (.waiting ticket rest) ∧
    s.scene.clock.due = [⟨ticket, .time deadline, since⟩]

theorem Dozes.not_endsTurn (h : s.Dozes) : s.endsTurn = false := by
  unfold endsTurn
  split
  · next ticket rest hjob =>
    obtain hnone | ⟨ticket', rest', deadline, since, -, hone⟩ := h
    · rw [hnone]
      rfl
    · rw [hone]
      simp [Due.sleeps]
  · rfl

/-- A stretch of the program at whose beginning no wait is due: if one is due at its end, it is a
sleep, and one that was ahead. -/
theorem dozes_advanceJob {act : Action α (Scene α) (Progress α)} {ahead : Nat}
    (hopening : Opening Progress.ticket? act)
    (hparks : ∀ ticket rest t, act s.scene = .ok (.waiting ticket rest) t →
      s.scene.Parks t ticket (rest.sleepsLeft cfg) ahead)
    (h : s.scene.clock.due = []) :
    (s.advanceJob act).Dozes ∧
      ((s.advanceJob act).scene.clock.due ≠ [] → (s.advanceJob act).sleepsLeft cfg ≤ ahead) := by
  have hopened := hopening s.scene
  unfold advanceJob
  cases hrun : act s.scene with
  | error fault t =>
    rw [hrun] at hopened
    have hdue : t.clock.due = [] := (congrArg Clock.due hopened).trans h
    exact ⟨.inl hdue, fun hne => absurd hdue hne⟩
  | ok progress t =>
    rw [hrun] at hopened
    cases progress with
    | done readings =>
      have hdue : t.clock.due = [] := (congrArg Clock.due hopened).trans h
      exact ⟨.inl hdue, fun hne => absurd hdue hne⟩
    | waiting ticket rest =>
      obtain ⟨due, rfl, hclock, hahead⟩ := hparks ticket rest t hrun
      rcases s.scene.clock.due_register due h with hnone | ⟨hone, deadline, rfl⟩
      · have hdue : t.clock.due = [] := (congrArg Clock.due hclock).trans hnone
        exact ⟨.inl hdue, fun hne => absurd hdue hne⟩
      · exact ⟨.inr ⟨_, rest, deadline, _, rfl, (congrArg Clock.due hclock).trans hone⟩,
          fun _ => hahead⟩

/-- After a release the program may be in a sleep that is due. It is one of those that were ahead
when it was released. -/
theorem dozes_wake (cfg : Settings α) (s : Simulation α) :
    (s.wake cfg).2.Dozes ∧
      ((s.wake cfg).2.scene.clock.due ≠ [] → (s.wake cfg).2.sleepsLeft cfg ≤ s.sleepsAhead cfg) := by
  have hreleased : s.released.scene.clock.due = [] := s.scene.clock.due_release
  by_cases hjob : ∃ ticket rest, s.job = some (.waiting ticket rest)
  · obtain ⟨ticket, rest, hjob⟩ := hjob
    have hahead : s.sleepsAhead cfg = rest.sleepsLeft cfg := by
      unfold sleepsAhead
      rw [hjob]
    rw [wake_of_waiting cfg hjob, hahead]
    dsimp only
    split
    · exact dozes_advanceJob (s := s.released) (Execution.opening_run cfg _ _ _)
        (fun _ _ _ hrun => Execution.parks_run hrun) hreleased
    · exact ⟨.inl hreleased, fun hne => absurd hreleased hne⟩
  · rw [wake_of_not_waiting cfg fun ticket rest hwaiting => hjob ⟨ticket, rest, hwaiting⟩]
    exact ⟨.inl hreleased, fun hne => absurd hreleased hne⟩

/-! ### The end of the releases -/

/-- A release is for all waits that are due. -/
theorem count_wake (cfg : Settings α) (s : Simulation α) :
    (s.wake cfg).1 = s.scene.clock.due.length := by
  by_cases hjob : ∃ ticket rest, s.job = some (.waiting ticket rest)
  · obtain ⟨ticket, rest, hjob⟩ := hjob
    rw [wake_of_waiting cfg hjob]
  · rw [wake_of_not_waiting cfg fun ticket rest hwaiting => hjob ⟨ticket, rest, hwaiting⟩]

theorem Settles.of_no_due (h : s.scene.clock.due = []) :
    Settles cfg s [s] (s.wake cfg).2 := by
  have hcount := count_wake cfg s
  rw [h] at hcount
  exact .last (Prod.ext hcount rfl)

theorem Settles.of_due (h : s.scene.clock.due ≠ []) (hrest : Settles cfg (s.wake cfg).2 calls t) :
    Settles cfg s (s :: calls) t := by
  obtain ⟨n, hn⟩ := Nat.exists_eq_succ_of_ne_zero (List.length_pos_iff.mpr h).ne'
  exact .again (Prod.ext ((count_wake cfg s).trans hn) rfl) hrest

/-- Once waits have been released, the releases come to an end. All but the last of them end a sleep
that was ahead of the program, and none a wait for the next frame. -/
theorem exists_settles_wake (cfg : Settings α) (s : Simulation α) :
    ∃ calls t, Settles cfg (s.wake cfg).2 calls t ∧ calls.length ≤ s.sleepsAhead cfg + 1 ∧
      ∀ u ∈ calls, u.endsTurn = false := by
  -- by induction on the sleeps ahead: if a wait is due again, the program is in one of them
  induction hn : s.sleepsAhead cfg using Nat.strong_induction_on generalizing s with
  | _ n ih =>
    obtain ⟨hdozes, hahead⟩ := dozes_wake cfg s
    have hturn := hdozes.not_endsTurn
    by_cases hdue : (s.wake cfg).2.scene.clock.due = []
    · exact ⟨[_], _, .of_no_due hdue, Nat.le_add_left 1 n, List.forall_mem_singleton.mpr hturn⟩
    · obtain ⟨ticket, rest, deadline, since, hjob, -⟩ := hdozes.resolve_left hdue
      have hleft : (s.wake cfg).2.sleepsLeft cfg = (s.wake cfg).2.sleepsAhead cfg + 1 := by
        unfold sleepsLeft sleepsAhead
        rw [hjob]
      have hless := hahead hdue
      obtain ⟨calls, t, hsettles, hlength, hturns⟩ := ih _ (by omega) (s.wake cfg).2 rfl
      refine ⟨_ :: calls, t, .of_due hdue hsettles, ?_, List.forall_mem_cons.mpr ⟨hturn, hturns⟩⟩
      rw [List.length_cons]
      omega

/-- From any simulation on the releases come to an end. All but two of them end a sleep of the
program, and only the first one can end a wait for the next frame that it is in. -/
theorem exists_settles (cfg : Settings α) (s : Simulation α) :
    ∃ calls t, Settles cfg s calls t ∧ calls.length ≤ s.sleepsAhead cfg + 2 ∧
      calls.countP endsTurn ≤ 1 := by
  by_cases hdue : s.scene.clock.due = []
  · exact ⟨[s], _, .of_no_due hdue, Nat.le_add_left 1 _, List.countP_le_length⟩
  · obtain ⟨calls, t, hsettles, hlength, hturns⟩ := exists_settles_wake cfg s
    have hnone : calls.countP endsTurn = 0 :=
      List.countP_eq_zero.mpr fun u hu => Bool.eq_false_iff.mp (hturns u hu)
    refine ⟨s :: calls, t, .of_due hdue hsettles, Nat.succ_le_succ hlength, ?_⟩
    rw [List.countP_cons, hnone]
    split <;> omega

/-! ### Frames -/

/-- A program that begins has its sleeps before it. -/
theorem sleepsAhead_runReady (cfg : Settings α) (s : Simulation α) :
    (s.runReady cfg).sleepsAhead cfg ≤ s.sleepsAhead cfg := by
  unfold runReady
  split
  · next commands hjob =>
    have hahead : s.sleepsAhead cfg =
        Execution.commandsSleeps cfg (commands.filter fun c => c.robot == s.scene.station.active) +
          1 := by
      unfold sleepsAhead
      rw [hjob]
    unfold advanceJob
    split
    · next ticket rest t hrun =>
      unfold Execution.begin at hrun
      rw [run_get_bind] at hrun
      obtain ⟨_, u, hhome, hrun⟩ := exists_of_bind_eq_ok hrun
      obtain ⟨due, -, -, hle⟩ := Execution.parks_run hrun
      have hpause := Step.sleeps_pausing cfg.pauses.reset
      rw [List.map_singleton, List.sum_singleton] at hle
      rw [hahead]
      show rest.sleepsLeft cfg ≤ _
      omega
    · exact Nat.zero_le _
    · exact Nat.zero_le _
  · exact Nat.zero_le _
  · exact Nat.le_refl _

/-- The number of sleeps that limits the releases of a frame is not less than those ahead. -/
theorem sleepsAhead_runReady_le_sleepsLeft (cfg : Settings α) (s : Simulation α) :
    (s.runReady cfg).sleepsAhead cfg ≤ (s.runReady cfg).sleepsLeft cfg := by
  have hbegun : ∀ commands, (s.runReady cfg).job ≠ some (.fresh commands) := by
    intro commands hfresh
    unfold runReady advanceJob at hfresh
    split at hfresh
    · split at hfresh <;> cases hfresh
    · cases hfresh
    · next hnot _ => exact hnot commands hfresh
  unfold sleepsAhead sleepsLeft
  split
  · next hfresh => exact absurd hfresh (hbegun _)
  · next hjob =>
    rw [hjob]
    exact Nat.le_succ _
  · exact Nat.zero_le _

/-- Every frame comes to its end, with a fault of its first half or after releases without a limit
on their number: at most two more than the program has sleeps before it. In one frame at most one
wait for the next frame ends that the program was in. -/
theorem frame_ends (cfg : Settings α) (dt : α) (s : Simulation α) :
    (∃ fault t, pass cfg dt s = .error fault t ∧ frame cfg dt s = .error fault t) ∨
      ∃ u calls t, pass cfg dt s = .ok () u ∧ Settles cfg (u.runReady cfg) calls t ∧
        frame cfg dt s = .ok () t ∧ calls.length ≤ s.sleepsAhead cfg + 2 ∧
        calls.countP endsTurn ≤ 1 := by
  cases hpass : pass cfg dt s with
  | error fault t =>
    refine .inl ⟨fault, t, rfl, ?_⟩
    rw [frame_eq, run_bind_error hpass]
  | ok _ u =>
    obtain ⟨calls, t, hsettles, hlength, hturns⟩ := exists_settles cfg (u.runReady cfg)
    have hready := sleepsAhead_runReady cfg u
    have hleft := sleepsAhead_runReady_le_sleepsLeft cfg u
    have hsame : u.sleepsAhead cfg = s.sleepsAhead cfg := by
      have hpassed := passed_of_pass hpass
      unfold sleepsAhead
      rw [hpassed.job, hpassed.station.active]
    have hfuel : calls.length ≤ (u.runReady cfg).sleepsLeft cfg + 2 := by omega
    refine .inr ⟨u, calls, t, rfl, hsettles, ?_, by omega, hturns⟩
    rw [frame_of_pass hpass, serve, settle_of_settles hsettles hfuel]

end Simulation

end ArmRover
