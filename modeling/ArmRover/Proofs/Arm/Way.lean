import ArmRover.Proofs.Arm.Answers
import ArmRover.Proofs.Arm.Search
import ArmRover.Proofs.Arm.Turning
import ArmRover.Settings.Basic

/-!
# The way to a point

The tip is brought to a point along a trajectory from the joints as they are to where the search for
the point ends. All configurations on this way lie in the box of the limits, as its two ends do, and
the gripper is rotated in them as it was.

* `Trajectory.within_of_mem_rows`, `Trajectory.gripper_of_mem_rows` — the configurations of a
  trajectory, `Trajectory.rows_eq_cons`, `Trajectory.getLast?_rows` — the first and the last one.
* `Arm.of_inverse?` — the answer of a search from within the limits.
* `Arm.Way` — the way to a point, `Arm.exists_way` — there is one, `Arm.Way.within`,
  `Arm.Way.gripper` — where it leads along.
-/

namespace ArmRover

open ArmRover.Action

/-! ### Trajectories -/

/-- Between two angles in the range of a joint there are no others. -/
theorem Joint.within_between {j : Joint} {a b p : ℝ} (ha : j.within a = true)
    (hb : j.within b = true) (hzero : 0 ≤ p) (hone : p ≤ 1) :
    j.within (a + (b - a) * p) = true := by
  obtain ⟨halow, hahigh⟩ := within_iff.mp ha
  obtain ⟨hblow, hbhigh⟩ := within_iff.mp hb
  refine within_iff.mpr ⟨?_, ?_⟩
  · show -(j.limit : ℝ) ≤ a + (b - a) * p
    have hlow : -(j.limit : ℝ) ≤ a := halow
    have hlow' : -(j.limit : ℝ) ≤ b := hblow
    nlinarith
  · show a + (b - a) * p ≤ (j.limit : ℝ)
    have hhigh : a ≤ (j.limit : ℝ) := hahigh
    have hhigh' : b ≤ (j.limit : ℝ) := hbhigh
    nlinarith

namespace Trajectory

variable {start goal q : Joints ℝ} {n : Nat}

theorem between_zero (start goal : Joints ℝ) : between start goal 0 = start := by
  refine Joints.ext_get fun j => ?_
  unfold between
  rw [Joints.get_zipWith]
  show start.get j + (goal.get j - start.get j) * 0 = start.get j
  rw [mul_zero, add_zero]

theorem between_one (start goal : Joints ℝ) : between start goal 1 = goal := by
  refine Joints.ext_get fun j => ?_
  unfold between
  rw [Joints.get_zipWith]
  show start.get j + (goal.get j - start.get j) * 1 = goal.get j
  rw [mul_one, add_sub_cancel]

/-- The configurations of a trajectory are at shares of the progress from 0 to 1. -/
theorem exists_of_mem_rows (h : q ∈ rows start goal n) :
    ∃ p : ℝ, 0 ≤ p ∧ p ≤ 1 ∧ q = between start goal p := by
  obtain ⟨i, hi, rfl⟩ := List.mem_map.mp h
  have hle : i ≤ n := Nat.le_of_lt_succ (List.mem_range.mp hi)
  let t : ℝ := (i : ℝ) / (n : ℝ)
  have hzero : 0 ≤ t := by positivity
  have hone : t ≤ 1 := div_le_one_of_le₀ (Nat.cast_le.mpr hle) (Nat.cast_nonneg n)
  refine ⟨ease t, ?_, ?_, ?_⟩
  · rw [← ease_zero]
    exact ease_le_ease le_rfl hzero hone
  · rw [← ease_one]
    exact ease_le_ease hzero hone le_rfl
  · rw [Scalar.ofInt_real, Scalar.ofInt_real, Int.cast_natCast, Int.cast_natCast]

/-- A trajectory between two configurations within the limits stays there. -/
theorem within_of_mem_rows (hstart : start.within = true) (hgoal : goal.within = true)
    (h : q ∈ rows start goal n) : q.within = true := by
  obtain ⟨p, hzero, hone, rfl⟩ := exists_of_mem_rows h
  refine Joints.within_iff.mpr fun j => ?_
  unfold between
  rw [Joints.get_zipWith]
  exact Joint.within_between (Joints.within_iff.mp hstart j) (Joints.within_iff.mp hgoal j)
    hzero hone

/-- A trajectory to a configuration with the same rotation of the gripper keeps it. -/
theorem gripper_of_mem_rows (hgoal : goal.gripper = start.gripper) (h : q ∈ rows start goal n) :
    q.gripper = start.gripper := by
  obtain ⟨p, -, -, rfl⟩ := exists_of_mem_rows h
  show start.gripper + (goal.gripper - start.gripper) * p = start.gripper
  rw [hgoal, sub_self, zero_mul, add_zero]

/-- A trajectory begins with its start. -/
theorem rows_eq_cons (start goal : Joints ℝ) (n : Nat) :
    rows start goal n = start :: (rows start goal n).tail := by
  have hfirst : between start goal (ease (Scalar.ofInt (0 : Nat) / Scalar.ofInt n)) = start := by
    show between start goal (ease (((0 : Nat) : Int) / (n : Int) : ℝ)) = start
    rw [Nat.cast_zero, Int.cast_zero, zero_div, ease_zero, between_zero]
  unfold rows
  rw [List.range_succ_eq_map, List.map_cons, List.tail_cons, hfirst]

/-- A trajectory ends with its goal. -/
theorem getLast?_rows (start goal : Joints ℝ) (hn : 0 < n) :
    (rows start goal n).getLast? = some goal := by
  have hne : (n : ℝ) ≠ 0 := Nat.cast_ne_zero.mpr hn.ne'
  have hlast : between start goal (ease (Scalar.ofInt n / Scalar.ofInt n)) = goal := by
    show between start goal (ease (((n : Int) : ℝ) / (n : Int))) = goal
    rw [Int.cast_natCast, div_self hne, ease_one, between_one]
  unfold rows
  rw [List.range_succ, List.map_append, List.map_singleton, List.getLast?_concat, hlast]

end Trajectory

/-! ### Answers -/

namespace Arm

section Answers

variable {α : Type} [Scalar α] {target : Point α} {passes tolerance : Value α} {g : α}

/-- The best configuration is the one that was judged last, or the best one before. -/
theorem Search.best_judged (s : Search α) (size : α) :
    (s.judged size).best = s.current ∨ (s.judged size).best = s.best :=
  (ite_eq_or_eq _ _ _).imp (congrArg best) (congrArg best)

/-- A search keeps the rotation of the gripper, if it is in the range. -/
theorem Search.gripper_of_run? (hg : Joint.gripper.clamp g = g) {first : Bool} {n : Nat}
    {s t : Search α} (hcurrent : s.current.gripper = g) (hbest : s.best.gripper = g)
    (h : run? target tolerance first n s = .ok t) : t.best.gripper = g := by
  have hjudged : ∀ {s : Search α} (size : α), s.current.gripper = g → s.best.gripper = g →
      (s.judged size).best.gripper = g := by
    intro s size hcurrent hbest
    rcases s.best_judged size with h | h
    · exact h ▸ hcurrent
    · exact h ▸ hbest
  induction n generalizing first s with
  | zero =>
    obtain rfl := Except.ok.inj h
    exact hjudged _ hcurrent hbest
  | succ n ih =>
    unfold run? at h
    obtain ⟨close, -, h⟩ := bind_eq_ok.mp h
    cases close with
    | true =>
      obtain rfl := Except.ok.inj h
      exact hjudged _ hcurrent hbest
    | false =>
      obtain ⟨next, hnext, h⟩ := bind_eq_ok.mp h
      rw [judged_current] at hnext
      obtain ⟨raw, hraw, rfl⟩ := of_aimed? hnext
      refine ih ?_ ?_ h
      · show Joint.gripper.clamp raw.gripper = g
        rw [hraw, hcurrent, hg]
      · exact hjudged _ hcurrent hbest

/-- The answer of a search from within the range is brought into the limits, and rotates the gripper
as it was. -/
theorem exists_clamp_of_inverse? {start goal : Joints α}
    (hstart : Joint.gripper.clamp start.gripper = start.gripper)
    (h : inverse? target.toList (some start.toList) passes tolerance = .ok goal) :
    ∃ best : Joints α, goal = best.clamp ∧ goal.gripper = start.gripper := by
  obtain ⟨aim, haim⟩ := exists_intoReach target
  obtain ⟨given, hgiven, h⟩ := bind_eq_ok.mp h
  obtain rfl : some start = given := Except.ok.inj hgiven
  obtain ⟨n, -, h⟩ := bind_eq_ok.mp h
  obtain ⟨n, -, h⟩ := bind_eq_ok.mp h
  rw [haim] at h
  obtain ⟨t, hrun, h⟩ := bind_eq_ok.mp h
  obtain rfl := Except.ok.inj h
  have hbest := Search.gripper_of_run? hstart (s := .start aim (initial (some start)))
    hstart hstart hrun
  refine ⟨t.best, rfl, ?_⟩
  show Joint.gripper.clamp t.best.gripper = start.gripper
  rw [hbest, hstart]

end Answers

/-- The answer of a search from within the limits is within them, and rotates the gripper as it
was. -/
theorem of_inverse? {target : Point ℝ} {passes tolerance : Value ℝ} {start goal : Joints ℝ}
    (hstart : start.within = true)
    (h : inverse? target.toList (some start.toList) passes tolerance = .ok goal) :
    goal.within = true ∧ goal.gripper = start.gripper := by
  have hgripper := Joint.clamp_of_within (Joints.within_iff.mp hstart .gripper)
  obtain ⟨best, rfl, hkept⟩ := exists_clamp_of_inverse? hgripper h
  exact ⟨Joints.within_clamp fun _ => rfl, hkept⟩

/-! ### Ways -/

/-- The way from a configuration to a point, without its start, where the search for the point ends
at a goal. It has as many configurations as the trajectory has segments. -/
structure Way (cfg : Settings ℝ) (target : Point ℝ) (start goal : Joints ℝ)
    (way : List (Joints ℝ)) : Prop where
  answer : inverse? target.toList (some start.toList) cfg.solver.passes cfg.solver.tolerance =
    .ok goal
  rows : Trajectory.rows? start.toList goal.toList cfg.motion.segments = .ok (start :: way)
  segments : cfg.motion.segments.number? = .ok (.whole way.length)
  getLast? : way.getLast? = some goal

variable {cfg : Settings ℝ} {target : Point ℝ} {start : Joints ℝ}

/-- There is a way, if the number of segments is whole and at least 1, and there is an answer. -/
theorem exists_way {n passes : Int} (hsegments : cfg.motion.segments.number? = .ok (.whole n))
    (hn : 1 ≤ n) (hpasses : cfg.solver.passes.number? = .ok (.whole passes))
    (htolerance : 0 < passes → cfg.solver.tolerance.IsNumber) (target : Point ℝ)
    (start : Joints ℝ) : ∃ goal way, Way cfg target start goal way := by
  obtain ⟨goal, hgoal⟩ := inverse?_answers hpasses htolerance target start
  have hcons := Trajectory.rows_eq_cons start goal n.toNat
  have hlast := Trajectory.getLast?_rows start goal (n := n.toNat) (by omega)
  have hlength := Trajectory.length_rows start goal n.toNat
  generalize hway : (Trajectory.rows start goal n.toNat).tail = way at hcons
  rw [hcons] at hlast hlength
  have hlength : way.length = n.toNat := Nat.succ.inj hlength
  refine ⟨goal, way, hgoal, ?_, ?_, ?_⟩
  · rw [Trajectory.rows?_eq hsegments hn, hcons]
  · rw [hlength, Int.toNat_of_nonneg (by omega)]
    exact hsegments
  · cases way with
    | nil => exact absurd hlength.symm (by simp only [List.length_nil]; omega)
    | cons q way =>
      rw [List.getLast?_cons_cons] at hlast
      exact hlast

namespace Way

variable {goal : Joints ℝ} {way : List (Joints ℝ)} (h : Way cfg target start goal way)
include h

theorem mem_rows {q : Joints ℝ} (hq : q ∈ way) :
    q ∈ Trajectory.rows start goal way.length := by
  have hpos : (1 : Int) ≤ way.length := Nat.cast_le.mpr (List.length_pos_of_mem hq)
  have hrows := Trajectory.rows?_eq h.segments hpos start goal
  rw [h.rows, Int.toNat_natCast] at hrows
  rw [← Except.ok.inj hrows]
  exact List.mem_cons_of_mem _ hq

/-- A way from within the limits stays there. -/
theorem within (hstart : start.within = true) : ∀ q ∈ way, q.within = true := by
  intro q hq
  exact Trajectory.within_of_mem_rows hstart (of_inverse? hstart h.answer).1 (h.mem_rows hq)

/-- On a way from within the limits the gripper is rotated as it was. -/
theorem gripper (hstart : start.within = true) : ∀ q ∈ way, q.gripper = start.gripper := by
  intro q hq
  exact Trajectory.gripper_of_mem_rows (of_inverse? hstart h.answer).2 (h.mem_rows hq)

end Way

end Arm

end ArmRover
