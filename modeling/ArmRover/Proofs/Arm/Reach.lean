import ArmRover.Arm.Reach
import ArmRover.Proofs.Arm.Links
import Mathlib.Analysis.InnerProductSpace.PiL2

/-!
# Targets within reach

A target out of reach is pulled in along the line to the origin. What is lost on the way is what
the target is too far away, and by the triangle inequality no other place within reach is nearer,
in any number of dimensions.

* `Point.length_ofFn` — a length is the norm of a vector, `Point.length_map_mul` — scaling.
* `Point.gap` — the distance between two places, `Point.length_sub_length_le_gap` — at least the
  difference of their lengths.
* `gap_intoReach` — how far the aim is from the target, `intoReach_nearest` — the aim is the place
  within reach that is nearest to the target.
-/

namespace ArmRover

/-! ### Lengths and distances -/

namespace Point

/-- The distance between two places that are given by as many coordinates. -/
noncomputable def gap (p q : List ℝ) : ℝ := length (List.zipWith (· - ·) p q)

theorem length_real (t : List ℝ) : length t = √(t.map (· ^ 2)).sum := by
  have hsum (start : ℝ) :
      t.foldl (fun sum c => sum + c * c) start = start + (t.map (· ^ 2)).sum := by
    induction t generalizing start with
    | nil => simp
    | cons c t ih =>
      rw [List.foldl_cons, ih, List.map_cons, List.sum_cons]
      ring
  have h := hsum 0
  rw [zero_add] at h
  rw [← h, ← Scalar.zero_real]
  rfl

theorem length_nonneg (t : List ℝ) : 0 ≤ length t := Real.sqrt_nonneg _

theorem gap_nonneg (p q : List ℝ) : 0 ≤ gap p q := length_nonneg _

/-- The length of coordinates is the norm of the vector that has them. -/
theorem length_ofFn {n : Nat} (f : Fin n → ℝ) : length (List.ofFn f) = ‖WithLp.toLp 2 f‖ := by
  rw [length_real, EuclideanSpace.norm_eq, List.map_ofFn, List.sum_ofFn]
  simp only [Function.comp_apply, Real.norm_eq_abs, sq_abs]

theorem gap_ofFn {n : Nat} (f g : Fin n → ℝ) :
    gap (List.ofFn f) (List.ofFn g) = ‖WithLp.toLp 2 f - WithLp.toLp 2 g‖ := by
  have hzip : List.zipWith (· - ·) (List.ofFn f) (List.ofFn g) = List.ofFn (f - g) := by
    apply List.ext_getElem <;> simp
  rw [gap, hzip, length_ofFn, WithLp.toLp_sub]

theorem length_map_mul (t : List ℝ) (k : ℝ) : length (t.map (· * k)) = |k| * length t := by
  have hsquares : ((t.map (· * k)).map (· ^ 2)).sum = k ^ 2 * (t.map (· ^ 2)).sum := by
    rw [List.map_map, ← List.sum_map_mul_left]
    congr 2
    funext c
    simp only [Function.comp_apply]
    ring
  rw [length_real, length_real, hsquares, Real.sqrt_mul (sq_nonneg k), Real.sqrt_sq_eq_abs]

theorem exists_ofFn {t : List ℝ} {n : Nat} (h : t.length = n) :
    ∃ f : Fin n → ℝ, t = List.ofFn f := by
  subst h
  exact ⟨t.get, t.ofFn_get.symm⟩

/-- Two places are as far apart as their lengths differ, or farther. -/
theorem length_sub_length_le_gap {p q : List ℝ} (h : p.length = q.length) :
    length q - length p ≤ gap p q := by
  generalize hq : q.length = n at h
  obtain ⟨f, rfl⟩ := exists_ofFn h
  obtain ⟨g, rfl⟩ := exists_ofFn hq
  rw [length_ofFn, length_ofFn, gap_ofFn, norm_sub_rev]
  exact norm_sub_norm_le _ _

/-- Scaled coordinates are on the line to the origin. -/
theorem gap_map_mul_self (t : List ℝ) (k : ℝ) : gap (t.map (· * k)) t = |k - 1| * length t := by
  have hzip : List.zipWith (· - ·) (t.map (· * k)) t = t.map (· * (k - 1)) := by
    rw [List.zipWith_map_left, List.zipWith_self]
    congr 1
    funext c
    ring
  rw [gap, hzip, length_map_mul]

end Point

/-! ### The aim -/

open Arm Point

theorem intoReach_of_length_le {t : List ℝ} (h : Point.length t ≤ fullReach) : intoReach t = t :=
  if_neg (not_lt.mpr h)

theorem intoReach_of_lt_length {t : List ℝ} (h : fullReach < Point.length t) :
    intoReach t = t.map (· * (fullReach / Point.length t)) :=
  if_pos h

theorem fullReach_pos : (0 : ℝ) < fullReach := by
  norm_num [fullReach_real]

theorem length_intoReach (t : List ℝ) :
    Point.length (intoReach t) = min (Point.length t) fullReach := by
  rcases le_or_gt (Point.length t) fullReach with h | h
  · rw [intoReach_of_length_le h, min_eq_left h]
  · have hlength := fullReach_pos.trans h
    rw [intoReach_of_lt_length h, length_map_mul, abs_of_pos (div_pos fullReach_pos hlength),
      div_mul_cancel₀ _ hlength.ne', min_eq_right h.le]

/-- The aim is nearer than the target by as much as it is away from the target. -/
theorem gap_intoReach (t : List ℝ) :
    gap (intoReach t) t = Point.length t - Point.length (intoReach t) := by
  rcases le_or_gt (Point.length t) fullReach with h | h
  · have hself := gap_map_mul_self t 1
    simp only [mul_one, List.map_id_fun', id, sub_self, abs_zero, zero_mul] at hself
    rw [intoReach_of_length_le h, hself, sub_self]
  · have hlength := fullReach_pos.trans h
    have hscale : fullReach / Point.length t < 1 := (div_lt_one hlength).mpr h
    rw [length_intoReach, min_eq_right h.le, intoReach_of_lt_length h, gap_map_mul_self,
      abs_of_neg (sub_neg.mpr hscale), neg_sub, sub_mul, one_mul, div_mul_cancel₀ _ hlength.ne']

/-- No place within reach is nearer to the target than the aim. -/
theorem gap_intoReach_le {t q : List ℝ} (hdim : q.length = t.length)
    (hq : Point.length q ≤ fullReach) : gap (intoReach t) t ≤ gap q t := by
  rw [gap_intoReach, length_intoReach]
  rcases le_total (Point.length t) fullReach with h | h
  · rw [min_eq_left h, sub_self]
    exact gap_nonneg q t
  · rw [min_eq_right h]
    exact (sub_le_sub_left hq _).trans (length_sub_length_le_gap hdim)

/-- The aim is the projection of the target onto the ball that the arm reaches: the target itself
if that is within reach, else the target scaled down to the full reach. It is as near to the target
as any place within reach, and aiming at it changes nothing more. -/
theorem intoReach_nearest (t : List ℝ) :
    Point.length (intoReach t) ≤ fullReach ∧
    (Point.length t ≤ fullReach → intoReach t = t) ∧
    (fullReach < Point.length t →
      ∃ k : ℝ, 0 < k ∧ intoReach t = t.map (· * k) ∧ Point.length (intoReach t) = fullReach) ∧
    (∀ q : List ℝ, q.length = t.length → Point.length q ≤ fullReach →
      gap (intoReach t) t ≤ gap q t) ∧
    intoReach (intoReach t) = intoReach t := by
  have hreach : Point.length (intoReach t) ≤ fullReach := by
    rw [length_intoReach]
    exact min_le_right _ _
  refine ⟨hreach, intoReach_of_length_le, fun hfar => ?_, fun q hdim hq => gap_intoReach_le hdim hq,
    intoReach_of_length_le hreach⟩
  refine ⟨_, div_pos fullReach_pos (fullReach_pos.trans hfar), intoReach_of_lt_length hfar, ?_⟩
  rw [length_intoReach, min_eq_right hfar.le]

/-- A target that is five away is scaled down to `1.95`, and one that is near stays. -/
theorem intoReach_nearest_scaled :
    intoReach [0, -4, 3] = ([0, -1.56, 1.17] : List ℝ) ∧
    gap (intoReach [0, -4, 3]) [0, -4, 3] ≤ gap [0, -1, 1] [0, -4, 3] ∧
    intoReach [0.5, 0.5, 0.5] = ([0.5, 0.5, 0.5] : List ℝ) := by
  have hlength : Point.length [0, -4, (3 : ℝ)] = 5 := by
    rw [length_real, Real.sqrt_eq_iff_mul_self_eq_of_pos] <;> norm_num
  have hother : Point.length [0, -1, (1 : ℝ)] ≤ fullReach := by
    rw [length_real, fullReach_real]
    exact Real.sqrt_le_iff.mpr (by norm_num)
  have hnear : Point.length [0.5, 0.5, (0.5 : ℝ)] ≤ fullReach := by
    rw [length_real, fullReach_real]
    exact Real.sqrt_le_iff.mpr (by norm_num)
  obtain ⟨-, -, hscaled, hnearest, -⟩ := intoReach_nearest [0, -4, 3]
  obtain ⟨k, hk, haim, hfull⟩ := hscaled (by rw [hlength, fullReach_real]; norm_num)
  refine ⟨?_, hnearest _ rfl hother, (intoReach_nearest _).2.1 hnear⟩
  rw [haim, length_map_mul, hlength, abs_of_pos hk, fullReach_real] at hfull
  obtain rfl : k = 0.39 := by linarith
  rw [haim]
  norm_num

end ArmRover
