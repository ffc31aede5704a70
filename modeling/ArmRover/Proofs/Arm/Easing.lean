import ArmRover.Proofs.Arm.Way

/-!
# Easing

All joints of a path share one progress, which eases in over the first half of the time and out over
the second half. The two halves are the same parabola, turned about the middle: what is done after a
share of the time is left after this share on the way back. So the path back goes through the same
configurations, in the opposite order.

* `Trajectory.progress` — the progress after each segment, `Trajectory.progress_le_progress` — it
  does not go back, `Trajectory.progress_sub` — seen from the other end.
* `Trajectory.getElem?_rows`, `Trajectory.getElem?_rows_swap` — a path, and the path back.
* `Trajectory.Progress`, `Trajectory.Eased` — what a path with a common progress is like.
* `Trajectory.eased_both_ways` — all paths, there and back.
-/

namespace ArmRover.Trajectory

/-! ### Progress -/

/-- What is done after a share of the time is left after this share on the way back. -/
theorem ease_one_sub (t : ℝ) : ease (1 - t) = 1 - ease t := by
  rw [ease_real, ease_real]
  rcases lt_trichotomy t (1 / 2) with hlow | rfl | hhigh
  · rw [if_pos hlow, if_neg (by linarith)]
    ring
  · norm_num
  · rw [if_pos (by linarith), if_neg (by linarith)]
    ring

/-- The progress after `i` of `n` equal segments of time. -/
noncomputable def progress (n i : Nat) : ℝ := ease (i / n)

section Segments

variable {n i k : Nat}

theorem progress_zero (n : Nat) : progress n 0 = 0 := by
  simp [progress, ease_zero]

theorem progress_self (hn : 0 < n) : progress n n = 1 := by
  have hne : (n : ℝ) ≠ 0 := Nat.cast_ne_zero.mpr hn.ne'
  unfold progress
  rw [div_self hne, ease_one]

/-- Progress does not go back. -/
theorem progress_le_progress (hik : i ≤ k) (hkn : k ≤ n) : progress n i ≤ progress n k := by
  have hn : (0 : ℝ) ≤ n := Nat.cast_nonneg n
  apply ease_le_ease
  · exact div_nonneg (Nat.cast_nonneg i) hn
  · exact div_le_div_of_nonneg_right (Nat.cast_le.mpr hik) hn
  · exact div_le_one_of_le₀ (Nat.cast_le.mpr hkn) hn

theorem progress_nonneg (hi : i ≤ n) : 0 ≤ progress n i := by
  rw [← progress_zero n]
  exact progress_le_progress (Nat.zero_le i) hi

theorem progress_le_one (hn : 0 < n) (hi : i ≤ n) : progress n i ≤ 1 := by
  rw [← progress_self hn]
  exact progress_le_progress hi le_rfl

/-- Progress seen from the other end. -/
theorem progress_sub (hn : 0 < n) (hi : i ≤ n) : progress n (n - i) = 1 - progress n i := by
  have hne : (n : ℝ) ≠ 0 := Nat.cast_ne_zero.mpr hn.ne'
  unfold progress
  rw [Nat.cast_sub hi, sub_div, div_self hne, ease_one_sub]

end Segments

/-! ### Paths -/

section Paths

variable {start goal : Joints ℝ} {n i : Nat}

theorem get_between (start goal : Joints ℝ) (p : ℝ) (j : Joint) :
    (between start goal p).get j = start.get j + (goal.get j - start.get j) * p := by
  unfold between
  rw [Joints.get_zipWith]

/-- The configuration on the way there is the one on the way back that leaves the rest undone. -/
theorem between_swap (start goal : Joints ℝ) (p : ℝ) :
    between goal start (1 - p) = between start goal p := by
  refine Joints.ext_get fun j => ?_
  rw [get_between, get_between]
  ring

/-- The configurations of a path, by their progress. -/
theorem rows_eq_map (start goal : Joints ℝ) (n : Nat) :
    rows start goal n = (List.range (n + 1)).map fun i => between start goal (progress n i) := by
  simp [rows, progress]

theorem getElem?_rows (start goal : Joints ℝ) (hi : i ≤ n) :
    (rows start goal n)[i]? = some (between start goal (progress n i)) := by
  have hlt : i < n + 1 := Nat.lt_succ_of_le hi
  simp [rows_eq_map, List.getElem?_range hlt]

theorem le_of_getElem?_rows {q : Joints ℝ} (h : (rows start goal n)[i]? = some q) : i ≤ n := by
  have hlt : i < (rows start goal n).length := (List.getElem?_eq_some_iff.mp h).1
  rw [length_rows] at hlt
  exact Nat.le_of_lt_succ hlt

/-- The path back is the path there, from its end to its start. -/
theorem getElem?_rows_swap (start goal : Joints ℝ) (hn : 0 < n) (hi : i ≤ n) :
    (rows goal start n)[i]? = (rows start goal n)[n - i]? := by
  rw [getElem?_rows goal start hi, getElem?_rows start goal (Nat.sub_le n i), progress_sub hn hi,
    ← between_swap goal start]

end Paths

/-! ### A common progress -/

/-- A progress over `n` segments of time, from nothing to all, that does not go back. -/
structure Progress (n : Nat) (p : Nat → ℝ) : Prop where
  first : p 0 = 0
  last : p n = 1
  mono : ∀ i k, i ≤ k → k ≤ n → p i ≤ p k
  mem_Icc : ∀ i, i ≤ n → p i ∈ Set.Icc 0 1

theorem progress_progress {n : Nat} (hn : 0 < n) : Progress n (progress n) where
  first := progress_zero n
  last := progress_self hn
  mono _ _ hik hkn := progress_le_progress hik hkn
  mem_Icc _ hi := ⟨progress_nonneg hi, progress_le_one hn hi⟩

/-- A path of `n` segments from one configuration to another on which one progress gives the angles
of all joints. Each joint turns one way, and stays between its two ends. -/
structure Eased (p : Nat → ℝ) (n : Nat) (start goal : Joints ℝ) (path : List (Joints ℝ)) :
    Prop where
  length : path.length = n + 1
  first : path[0]? = some start
  last : path[n]? = some goal
  angle : ∀ i q, path[i]? = some q → ∀ j : Joint,
    q.get j = start.get j + (goal.get j - start.get j) * p i
  turns : path.Pairwise fun q r => ∀ j : Joint,
    (start.get j ≤ goal.get j → q.get j ≤ r.get j) ∧
      (goal.get j ≤ start.get j → r.get j ≤ q.get j)
  within : ∀ q ∈ path, ∀ j : Joint, q.get j ∈ Set.uIcc (start.get j) (goal.get j)

/-- With more progress a joint has turned further. -/
theorem turned_of_le {p q : ℝ} (hpq : p ≤ q) (start goal : Joints ℝ) (j : Joint) :
    (start.get j ≤ goal.get j → (between start goal p).get j ≤ (between start goal q).get j) ∧
      (goal.get j ≤ start.get j →
        (between start goal q).get j ≤ (between start goal p).get j) := by
  rw [get_between, get_between]
  constructor
  · intro hup
    have hstep := mul_le_mul_of_nonneg_left hpq (sub_nonneg.mpr hup)
    linarith
  · intro hdown
    have hstep := mul_le_mul_of_nonpos_left hpq (sub_nonpos.mpr hdown)
    linarith

theorem between_mem_uIcc {p : ℝ} (hzero : 0 ≤ p) (hone : p ≤ 1) (start goal : Joints ℝ)
    (j : Joint) : (between start goal p).get j ∈ Set.uIcc (start.get j) (goal.get j) := by
  have hfirst := turned_of_le hzero start goal j
  have hlast := turned_of_le hone start goal j
  rw [between_zero] at hfirst
  rw [between_one] at hlast
  rcases le_total (start.get j) (goal.get j) with hup | hdown
  · exact Set.mem_uIcc_of_le (hfirst.1 hup) (hlast.1 hup)
  · exact Set.mem_uIcc_of_ge (hlast.2 hdown) (hfirst.2 hdown)

theorem pairwise_rows (start goal : Joints ℝ) (n : Nat) :
    (rows start goal n).Pairwise fun q r => ∀ j : Joint,
      (start.get j ≤ goal.get j → q.get j ≤ r.get j) ∧
        (goal.get j ≤ start.get j → r.get j ≤ q.get j) := by
  rw [rows_eq_map, List.pairwise_map]
  refine List.pairwise_lt_range.imp_of_mem fun {i k} _ hk hik j => ?_
  have hkn : k ≤ n := Nat.le_of_lt_succ (List.mem_range.mp hk)
  exact turned_of_le (progress_le_progress hik.le hkn) start goal j

theorem eased_rows (start goal : Joints ℝ) {n : Nat} (hn : 0 < n) :
    Eased (progress n) n start goal (rows start goal n) where
  length := length_rows start goal n
  first := by rw [getElem?_rows start goal (Nat.zero_le n), progress_zero, between_zero]
  last := by rw [getElem?_rows start goal le_rfl, progress_self hn, between_one]
  angle := by
    intro i q hq j
    have hrow := getElem?_rows start goal (le_of_getElem?_rows hq)
    obtain rfl := Option.some.inj (hq.symm.trans hrow)
    exact get_between start goal _ j
  turns := pairwise_rows start goal n
  within := by
    intro q hq j
    obtain ⟨p, hzero, hone, rfl⟩ := exists_of_mem_rows hq
    exact between_mem_uIcc hzero hone start goal j

/-! ### There and back -/

/-- For every number of segments there is one progress, the same for all joints and for all paths:
it does not go back, and gives the angles of every path from any start to any goal. The path back
from the goal to the start goes through the same configurations in the opposite order. -/
theorem eased_both_ways {segments : Value ℝ} {n : Nat}
    (hsegments : segments.number? = .ok (.whole n)) (hn : 1 ≤ n) :
    ∃ p : Nat → ℝ, Progress n p ∧ ∀ start goal : Joints ℝ, ∃ path back,
      rows? start.toList goal.toList segments = .ok path ∧
        rows? goal.toList start.toList segments = .ok back ∧
        Eased p n start goal path ∧ Eased p n goal start back ∧
        ∀ i ≤ n, back[i]? = path[n - i]? := by
  have hwhole : (1 : Int) ≤ n := Int.ofNat_le.mpr hn
  refine ⟨progress n, progress_progress hn, fun start goal => ?_⟩
  refine ⟨rows start goal n, rows goal start n, rows?_eq hsegments hwhole start goal,
    rows?_eq hsegments hwhole goal start, eased_rows start goal hn, eased_rows goal start hn, ?_⟩
  intro i hi
  exact getElem?_rows_swap start goal hn hi

/-- Paths of three segments, so that no configuration is in the middle of the time. -/
theorem eased_both_ways_three :
    (Value.number (.whole 3) : Value ℝ).number? = .ok (.whole (3 : Nat)) ∧ 1 ≤ 3 ∧
      ∃ p : Nat → ℝ, Progress 3 p ∧ ∀ start goal : Joints ℝ, ∃ path back,
        rows? start.toList goal.toList (.number (.whole 3)) = .ok path ∧
          rows? goal.toList start.toList (.number (.whole 3)) = .ok back ∧
          Eased p 3 start goal path ∧ Eased p 3 goal start back ∧
          ∀ i ≤ 3, back[i]? = path[3 - i]? :=
  ⟨rfl, by decide, eased_both_ways rfl (by decide)⟩

end ArmRover.Trajectory
