import ArmRover.Arm.Inverse
import ArmRover.Arm.Trajectory
import ArmRover.Proofs.Scalar.Real

/-!
# When the arm has an answer

Over the real numbers the arithmetic of the arm gives up only for settings that are of no use:
with a whole number of passes and a tolerance that is a number, if there is a pass, the search
ends with an answer, and with a whole number of segments, at least 1, there is a path.

* `Arm.inverse?_answers` — the search, `Trajectory.rows?_eq`, `Trajectory.tips?_eq` — the path.
* `Trajectory.rows?_of_real` — a number of segments that is not whole gives none.
-/

namespace ArmRover

/-! ### The search -/

namespace Value

variable {v : Value ℝ}

theorem ask?_answers (h : v.IsNumber) (question : Number ℝ → Bool) :
    ∃ b, v.ask? question = .ok b := by
  obtain ⟨n, hn⟩ := h
  refine ⟨question n, ?_⟩
  unfold ask?
  rw [hn]
  rfl

theorem askComputed?_answers (h : v.IsNumber) (question : Number ℝ → Bool) :
    ∃ b, v.askComputed? question = .ok b := by
  have hscalar := scalar?_of_isNumber h
  obtain ⟨n, hn⟩ := h
  refine ⟨question (.real v.amount), ?_⟩
  unfold askComputed?
  split
  · exact absurd hn nofun
  · rw [hscalar]
    rfl

end Value

namespace Arm

variable {tolerance : Value ℝ}

theorem aimed?_answers (h : tolerance.IsNumber) (aim : Point ℝ) (previous : Joints ℝ) :
    ∃ q, aimed? aim previous tolerance = .ok q := by
  have hplanar : ∀ spot, ∃ p, planarFor? spot tolerance = .ok p := by
    intro spot
    unfold planarFor?
    cases level? spot with
    | some p => exact ⟨p, rfl⟩
    | none =>
      -- only for a spot that is not in reach the tolerance is asked for
      obtain ⟨b, hb⟩ := Value.ask?_answers h
        fun n => n.below ((stretched spot).clamp.tip.distance spot)
      dsimp only
      rw [hb]
      cases b with
      | true => exact ⟨_, rfl⟩
      | false => exact ⟨_, rfl⟩
  obtain ⟨p, hp⟩ := hplanar (spotOf aim (bearing aim previous.base))
  unfold aimed?
  dsimp only
  rw [hp]
  exact ⟨_, rfl⟩

theorem Search.run?_answers (target : Point ℝ) (first : Bool) (passes : Nat)
    (h : 0 < passes → tolerance.IsNumber) (s : Search ℝ) :
    ∃ t, Search.run? target tolerance first passes s = .ok t := by
  induction passes generalizing first s with
  | zero => exact ⟨_, rfl⟩
  | succ passes ih =>
    have h := h (Nat.succ_pos passes)
    obtain ⟨b, hb⟩ := Value.askComputed?_answers h fun n => n.above (s.error target).norm
    unfold Search.run?
    dsimp only
    rw [hb]
    cases b with
    | true => exact ⟨_, rfl⟩
    | false =>
      obtain ⟨q, hq⟩ := aimed?_answers h (if first = true then (s.judged (s.error target).norm).aim
        else (s.judged (s.error target).norm).aim + s.error target)
        (s.judged (s.error target).norm).current
      obtain ⟨t, ht⟩ := ih false (fun _ => h) { s.judged (s.error target).norm with
        aim := if first = true then (s.judged (s.error target).norm).aim
          else (s.judged (s.error target).norm).aim + s.error target
        current := q }
      refine ⟨t, ?_⟩
      rw [← ht]
      show (aimed? _ _ tolerance >>= _) = _
      rw [hq]
      rfl

/-- The search ends with a configuration, whether or not it brings the tip to the target. Without a
pass the tolerance does not matter. -/
theorem inverse?_answers {passes : Value ℝ} {n : Int} (hpasses : passes.number? = .ok (.whole n))
    (h : 0 < n → tolerance.IsNumber) (target : Point ℝ) (current : Joints ℝ) :
    ∃ q, inverse? target.toList (some current.toList) passes tolerance = .ok q := by
  have hreach : ∃ x y z : ℝ, intoReach target.toList = [x, y, z] := by
    unfold intoReach
    dsimp only
    split
    · exact ⟨_, _, _, rfl⟩
    · exact ⟨_, _, _, rfl⟩
  obtain ⟨x, y, z, hxyz⟩ := hreach
  obtain ⟨s, hs⟩ := Search.run?_answers ⟨x, y, z⟩ true n.toNat (fun hn => h (by omega))
    (.start ⟨x, y, z⟩ (initial (some current)))
  refine ⟨s.best.clamp, ?_⟩
  unfold inverse?
  rw [hpasses, hxyz]
  show (Search.run? ⟨x, y, z⟩ tolerance true n.toNat _ >>= _) = _
  rw [hs]
  rfl

end Arm

/-! ### The path -/

namespace Trajectory

theorem segments?_eq {segments : Value ℝ} {n : Number ℝ} (h : segments.number? = .ok n) :
    segments? segments =
      if n.below (Scalar.ofInt 1) = true then .error (.segmentCount segments) else .ok n := by
  unfold segments?
  rw [h]
  rfl

theorem rows?_eq {segments : Value ℝ} {n : Int} (h : segments.number? = .ok (.whole n))
    (hn : 1 ≤ n) (start target : Joints ℝ) :
    rows? start.toList target.toList segments = .ok (rows start target n.toNat) := by
  unfold rows?
  rw [segments?_eq h, Number.whole_below_one hn, if_neg Bool.false_ne_true]
  rfl

/-- There are no parts of a segment. -/
theorem rows?_of_real {segments : Value ℝ} {x : ℝ} (h : segments.number? = .ok (.real x))
    (start target : Joints ℝ) :
    ∃ fault, rows? start.toList target.toList segments = .error fault := by
  unfold rows?
  rw [segments?_eq h]
  split
  · exact ⟨_, rfl⟩
  · exact ⟨_, rfl⟩

/-- Every tip has a position. -/
theorem tips?_eq (path : List (Joints ℝ)) : tips? path = .ok (tips path) := by
  have htip : ∀ q : Joints ℝ, q.tip? = .ok q.tip := by
    intro q
    unfold Joints.tip?
    simp [Joints.toList]
  unfold tips? tips
  induction path with
  | nil => rfl
  | cons q path ih =>
    rw [List.mapM_cons, htip, ih]
    rfl

end Trajectory

end ArmRover
