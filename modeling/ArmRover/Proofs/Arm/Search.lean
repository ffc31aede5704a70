import ArmRover.Arm.Inverse
import ArmRover.Proofs.Action
import ArmRover.Proofs.Arm.Limits
import ArmRover.Proofs.Scalar.Finite

/-!
# The best of all passes

The search for joint angles tries one configuration in each pass, and its answer is the best of all
that were tried, the start among them. Whatever the passes do, it is within the limits and keeps the
rotation of the gripper.

* `Joints.miss` — how far the tip is from a target.
* `Arm.Tries` — the configurations that a search tries, and whether it ends early.
* `Arm.Search.exists_run?` — a search judges just these.
* `Arm.inverse?_best` — the answer for a target.
-/

namespace ArmRover

open ArmRover.Action
open Scalar.Ordered

variable {α : Type} [Scalar α]

/-- The distance of the tip from a target. -/
def Joints.miss (q : Joints α) (target : Point α) : α := (target - q.tip).norm

/-- A configuration of which no angle is missing, at a finite distance from a target. -/
structure Joints.Finite (target : Point α) (q : Joints α) : Prop where
  angles : ∀ j, Scalar.isNaN (q.get j) = false
  miss : Scalar.IsFinite (q.miss target)

theorem Joints.finite_real (target : Point ℝ) (q : Joints ℝ) : q.Finite target :=
  ⟨fun _ => rfl, Scalar.isFinite_real _⟩

namespace Value

variable {v : Value α} {x : α}

theorem exists_number?_of_scalar? (h : v.scalar? = .ok x) : ∃ n, v.number? = .ok n := by
  obtain ⟨n, hn, -⟩ := bind_eq_ok.mp h
  exact ⟨n, hn⟩

theorem askComputed?_of_scalar? (h : v.scalar? = .ok x) (question : Number α → Bool) :
    v.askComputed? question = .ok (question (.real x)) := by
  unfold askComputed?
  split
  · cases h
  · rw [h]
    rfl

end Value

namespace Arm

variable {target : Point α} {tolerance : Value α} {τ : α}

/-! ### What a search tries -/

/-- The configurations that a search tries with a number of passes left, from the current one on,
and whether it ends early because a tip comes nearer to the target than `τ`. From the second pass on
the aim moves by the error. -/
inductive Tries (target : Point α) (tolerance : Value α) (τ : α) :
    Bool → Nat → Point α → Joints α → List (Joints α) → Bool → Prop where
  | spent {first aim q} : Tries target tolerance τ first 0 aim q [q] false
  | early {first n aim q} : q.miss target < τ →
    Tries target tolerance τ first (n + 1) aim q [q] true
  | pass {first n aim aim' q next rest early} : ¬ q.miss target < τ →
    aim' = (if first then aim else aim + (target - q.tip)) →
    aimed? aim' q tolerance = .ok next →
    Tries target tolerance τ false n aim' next rest early →
    Tries target tolerance τ first (n + 1) aim q (q :: rest) early

namespace Tries

variable {first early : Bool} {n : Nat} {aim : Point α} {q : Joints α} {tried : List (Joints α)}

theorem current_mem (h : Tries target tolerance τ first n aim q tried early) : q ∈ tried := by
  cases h <;> exact List.mem_cons_self

theorem exists_near (h : Tries target tolerance τ first n aim q tried early)
    (hearly : early = true) : ∃ p ∈ tried, p.miss target < τ := by
  induction h with
  | spent => cases hearly
  | early hnear => exact ⟨_, List.mem_cons_self, hnear⟩
  | pass _ _ _ _ ih =>
    obtain ⟨p, hp, hnear⟩ := ih hearly
    exact ⟨p, List.mem_cons_of_mem _ hp, hnear⟩

/-- What holds after the first pass and is preserved by every other one holds of all passes. -/
theorem forall_mem {P : Point α → Joints α → Prop}
    (h : Tries target tolerance τ first n aim q tried early) (hfirst : first = false)
    (hstep : ∀ {aim q next}, P aim q →
      aimed? (aim + (target - q.tip)) q tolerance = .ok next → P (aim + (target - q.tip)) next)
    (hq : P aim q) : ∀ p ∈ tried, ∃ aim, P aim p := by
  induction h with
  | spent => exact List.forall_mem_singleton.mpr ⟨_, hq⟩
  | early => exact List.forall_mem_singleton.mpr ⟨_, hq⟩
  | pass _ haim hnext _ ih =>
    subst hfirst
    rw [if_neg Bool.false_ne_true] at haim
    subst haim
    exact List.forall_mem_cons.mpr ⟨⟨_, hq⟩, ih rfl (hstep hq hnext)⟩

end Tries

/-- A pass brings all joints into their ranges, and only aims those in front of the gripper. -/
theorem of_aimed? {aim : Point α} {q next : Joints α} (h : aimed? aim q tolerance = .ok next) :
    ∃ raw : Joints α, raw.gripper = q.gripper ∧ next = raw.clamp := by
  obtain ⟨p, -, h⟩ := bind_eq_ok.mp h
  exact ⟨⟨bearing aim q.base, p.shoulder, p.elbow, p.wrist, q.gripper⟩, rfl, (Except.ok.inj h).symm⟩

theorem exists_aimed? {n : Number α} (h : tolerance.number? = .ok n) (aim : Point α)
    (q : Joints α) : ∃ next, aimed? aim q tolerance = .ok next := by
  have hplanar : ∀ spot, ∃ p, planarFor? spot tolerance = .ok p := by
    intro spot
    unfold planarFor?
    cases level? spot with
    | some p => exact ⟨p, rfl⟩
    | none =>
      unfold Value.ask?
      rw [h]
      dsimp only
      show ∃ p, (do
        if n.below ((stretched spot).clamp.tip.distance spot) then
          return (swept? spot).getD (stretched spot).clamp
        return (stretched spot).clamp : Except (Fault α) (Planar α)) = .ok p
      split
      · exact ⟨_, rfl⟩
      · exact ⟨_, rfl⟩
  obtain ⟨p, hp⟩ := hplanar (spotOf aim (bearing aim q.base))
  unfold aimed?
  dsimp only
  rw [hp]
  exact ⟨_, rfl⟩

namespace Search

/-! ### The best so far -/

/-- The best configuration of a search is the best one of those that were judged. -/
def Judged (target : Point α) (seen : List (Joints α)) (s : Search α) : Prop :=
  match s.bestError with
  | none => seen = []
  | some e => s.best ∈ seen ∧ e = s.best.miss target ∧ ∀ q ∈ seen, e ≤ q.miss target

variable [Scalar.Ordered α] {seen : List (Joints α)} {s : Search α}

theorem Judged.judged (hs : Judged target seen s) (hcurrent : s.current.Finite target) :
    Judged target (s.current :: seen) (s.judged (s.current.miss target)) := by
  have hmiss := hcurrent.miss.not_nan
  unfold Search.judged
  unfold Judged at hs
  cases hbest : s.bestError with
  | none =>
    rw [hbest] at hs
    have hseen : seen = [] := hs
    subst hseen
    have hbelow : Scalar.belowInfinity (s.current.miss target) = true := by
      unfold Scalar.belowInfinity
      rw [hmiss, hcurrent.miss.not_infinite]
      rfl
    dsimp only
    rw [if_pos hbelow]
    refine ⟨List.mem_cons_self, rfl, fun q hq => ?_⟩
    rw [List.mem_singleton.mp hq]
    exact le_refl hmiss
  | some e =>
    rw [hbest] at hs
    obtain ⟨hmem, he, hle⟩ := hs
    dsimp only
    by_cases hlt : s.current.miss target < e
    · rw [if_pos (decide_eq_true hlt)]
      refine ⟨List.mem_cons_self, rfl, fun q hq => ?_⟩
      rcases List.mem_cons.mp hq with rfl | hq
      · exact le_refl hmiss
      · exact le_trans (le_of_lt hlt) (hle q hq)
    · rw [if_neg (ne_true_of_eq_false (decide_eq_false hlt))]
      unfold Judged
      rw [hbest]
      refine ⟨List.mem_cons_of_mem _ hmem, he, fun q hq => ?_⟩
      rcases List.mem_cons.mp hq with rfl | hq
      · exact le_of_not_lt hmiss (not_nan_of_le (hle _ hmem)).1 hlt
      · exact hle q hq

/-! ### The passes -/

omit [Scalar.Ordered α] in
theorem judged_current (s : Search α) (size : α) : (s.judged size).current = s.current :=
  (apply_ite current _ _ _).trans (ite_self _)

omit [Scalar.Ordered α] in
theorem judged_aim (s : Search α) (size : α) : (s.judged size).aim = s.aim :=
  (apply_ite aim _ _ _).trans (ite_self _)

omit [Scalar.Ordered α] in
theorem run?_early (hτ : tolerance.scalar? = .ok τ) {first : Bool} {n : Nat}
    (hnear : s.current.miss target < τ) :
    run? target tolerance first (n + 1) s = .ok (s.judged (s.current.miss target)) := by
  unfold run?
  dsimp only
  rw [Value.askComputed?_of_scalar? hτ]
  show (if decide (s.current.miss target < τ) then _ else _) = _
  rw [if_pos (decide_eq_true hnear)]
  rfl

omit [Scalar.Ordered α] in
theorem run?_pass (hτ : tolerance.scalar? = .ok τ) {first : Bool} {n : Nat} {aim : Point α}
    {next : Joints α} (hfar : ¬ s.current.miss target < τ)
    (haim : aim = if first then s.aim else s.aim + (target - s.current.tip))
    (hnext : aimed? aim s.current tolerance = .ok next) :
    run? target tolerance first (n + 1) s =
      run? target tolerance false n
        { s.judged (s.current.miss target) with aim, current := next } := by
  subst haim
  conv_lhs => unfold run?
  dsimp only
  rw [Value.askComputed?_of_scalar? hτ]
  show (if decide (s.current.miss target < τ) then _ else _) = _
  rw [if_neg (ne_true_of_eq_false (decide_eq_false hfar)), judged_aim, judged_current]
  show (aimed? (if first then s.aim else s.aim + (target - s.current.tip)) s.current tolerance >>=
    _) = _
  rw [hnext]
  rfl

/-- A search judges the configurations that it tries. -/
theorem exists_run? (hτ : tolerance.scalar? = .ok τ) (first : Bool) (n : Nat) (s : Search α) :
    ∃ t tried early, run? target tolerance first n s = .ok t ∧
      Tries target tolerance τ first n s.aim s.current tried early ∧
      ∀ seen, Judged target seen s → (∀ q ∈ tried, q.Finite target) →
        Judged target (tried.reverse ++ seen) t := by
  induction n generalizing first s with
  | zero =>
    exact ⟨_, _, _, rfl, .spent, fun seen hs hfinite =>
      hs.judged (hfinite _ List.mem_cons_self)⟩
  | succ n ih =>
    by_cases hnear : s.current.miss target < τ
    · exact ⟨_, _, _, run?_early hτ hnear, .early hnear, fun seen hs hfinite =>
        hs.judged (hfinite _ List.mem_cons_self)⟩
    · obtain ⟨m, hm⟩ := Value.exists_number?_of_scalar? hτ
      obtain ⟨next, hnext⟩ := exists_aimed? hm
        (if first then s.aim else s.aim + (target - s.current.tip)) s.current
      obtain ⟨t, tried, early, hrun, htries, hjudged⟩ := ih false
        { s.judged (s.current.miss target) with
          aim := if first then s.aim else s.aim + (target - s.current.tip), current := next }
      refine ⟨t, s.current :: tried, early, (run?_pass hτ hnear rfl hnext).trans hrun,
        .pass hnear rfl hnext htries, fun seen hs hfinite => ?_⟩
      have hnow := hs.judged (hfinite _ List.mem_cons_self)
      have hlater := hjudged (s.current :: seen) hnow fun q hq =>
        hfinite q (List.mem_cons_of_mem _ hq)
      rwa [List.reverse_cons, List.append_assoc]

end Search

/-! ### The answer -/

section Answer

variable [Scalar.Ordered α] [Joint.Ranged α] {n : Nat} {goal aim : Point α} {start : Joints α}

/-- What a search tries lies within the limits, with the gripper rotated as it was. -/
theorem Tries.within {first early : Bool} {q : Joints α} {tried : List (Joints α)}
    (h : Tries target tolerance τ first n aim q tried early)
    (hfinite : ∀ p ∈ tried, p.Finite target) (hq : q.within = true) :
    ∀ p ∈ tried, p.within = true ∧ p.gripper = q.gripper := by
  induction h with
  | spent => exact List.forall_mem_singleton.mpr ⟨hq, rfl⟩
  | early => exact List.forall_mem_singleton.mpr ⟨hq, rfl⟩
  | @pass first n aim aim' q next rest early _ _ hnext htries ih =>
    have hrest : ∀ p ∈ rest, p.Finite target := fun p hp => hfinite p (List.mem_cons_of_mem _ hp)
    obtain ⟨raw, hraw, rfl⟩ := of_aimed? hnext
    have hwithin := Joints.within_clamp (hrest _ htries.current_mem).angles
    have hgripper : raw.clamp.gripper = q.gripper := by
      show Joint.gripper.clamp raw.gripper = q.gripper
      rw [hraw]
      exact Joint.clamp_of_within (Joints.within_iff.mp hq .gripper)
    refine List.forall_mem_cons.mpr ⟨⟨hq, rfl⟩, fun p hp => ?_⟩
    rw [← hgripper]
    exact ih hrest hwithin p hp

theorem initial_within {given : Option (Joints α)}
    (h : ∀ j, Scalar.isNaN ((initial given).get j) = false) : (initial given).within = true := by
  cases given with
  | none => exact Joints.within_zero
  | some q => exact Joints.within_clamp h

/-- A search from within the limits ends with the best of the configurations that it tries. -/
theorem Search.exists_best (hτ : tolerance.scalar? = .ok τ) (n : Nat) (goal : Point α)
    (given : Option (Joints α)) :
    ∃ t tried early, run? goal tolerance true n (.start goal (initial given)) = .ok t ∧
      Tries goal tolerance τ true n goal (initial given) tried early ∧
      ((∀ q ∈ tried, q.Finite goal) → t.best.clamp ∈ tried ∧
        (∀ q ∈ tried, t.best.clamp.miss goal ≤ q.miss goal) ∧
        ∀ q ∈ tried, q.within = true ∧ q.gripper = (initial given).gripper) := by
  obtain ⟨t, tried, early, hrun, htries, hjudged⟩ :=
    exists_run? hτ true n (.start goal (initial given))
  refine ⟨t, tried, early, hrun, htries, fun hfinite => ?_⟩
  have hwithin := htries.within hfinite (initial_within (hfinite _ htries.current_mem).angles)
  have hbest := hjudged [] rfl hfinite
  rw [List.append_nil] at hbest
  unfold Judged at hbest
  cases he : t.bestError with
  | none =>
    rw [he] at hbest
    rw [List.reverse_eq_nil_iff.mp hbest] at htries
    exact absurd htries.current_mem List.not_mem_nil
  | some e =>
    rw [he] at hbest
    obtain ⟨hmem, rfl, hle⟩ := hbest
    rw [List.mem_reverse] at hmem
    rw [Joints.clamp_of_within (hwithin _ hmem).1]
    exact ⟨hmem, fun q hq => hle q (List.mem_reverse.mpr hq), hwithin⟩

omit [Scalar.Ordered α] [Joint.Ranged α] in
/-- A target that is pulled into reach is a point again. -/
theorem exists_intoReach (target : Point α) :
    ∃ goal : Point α, intoReach target.toList = goal.toList := by
  unfold intoReach
  dsimp only
  split
  · exact ⟨⟨_, _, _⟩, rfl⟩
  · exact ⟨target, rfl⟩

omit [Scalar.Ordered α] [Joint.Ranged α] in
/-- The answer for a target is the best configuration of a search. -/
theorem inverse?_of_run? {target goal : Point α} {given : Option (Joints α)} {n : Int}
    {t : Search α} (hgoal : intoReach target.toList = goal.toList)
    (hrun : Search.run? goal tolerance true n.toNat (.start goal (initial given)) = .ok t) :
    inverse? target.toList (given.map Joints.toList) (.number (.whole n)) tolerance =
      .ok t.best.clamp := by
  have hgiven : (given.map Joints.toList).mapM (Joints.ofList? (α := α)) = .ok given := by
    cases given <;> rfl
  unfold inverse?
  rw [hgiven, hgoal]
  show (do
    let t ← Search.run? goal tolerance true n.toNat (.start goal (initial given))
    return t.best.clamp : Except (Fault α) (Joints α)) = _
  rw [hrun]
  rfl

/-- The answer for a target lies within the limits, keeps the rotation of the gripper that it was
given, and is no farther from the target, pulled into reach, than the start and any other
configuration that was tried. If the search ended early, it is nearer than the tolerance. -/
theorem inverse?_best (target : Point α) (given : Option (Joints α)) (n : Int)
    (hτ : tolerance.scalar? = .ok τ) :
    ∃ goal : Point α, intoReach target.toList = goal.toList ∧
      ∃ tried early r, Tries goal tolerance τ true n.toNat goal (initial given) tried early ∧
        inverse? target.toList (given.map Joints.toList) (.number (.whole n)) tolerance = .ok r ∧
        ((∀ q ∈ tried, q.Finite goal) →
          r.within = true ∧
          r.gripper = (given.map fun q => Joint.gripper.clamp q.gripper).getD 0 ∧
          r.miss goal ≤ (initial given).miss goal ∧
          (∀ q ∈ tried, r.miss goal ≤ q.miss goal) ∧
          (early = true → r.miss goal < τ)) := by
  obtain ⟨goal, hgoal⟩ := exists_intoReach target
  obtain ⟨t, tried, early, hrun, htries, hbest⟩ := Search.exists_best hτ n.toNat goal given
  refine ⟨goal, hgoal, tried, early, t.best.clamp, htries, inverse?_of_run? hgoal hrun, ?_⟩
  intro hfinite
  obtain ⟨hmem, hle, hwithin⟩ := hbest hfinite
  obtain ⟨hin, hgripper⟩ := hwithin _ hmem
  refine ⟨hin, ?_, hle _ htries.current_mem, hle, fun hearly => ?_⟩
  · rw [hgripper]
    cases given <;> rfl
  · obtain ⟨p, hp, hnear⟩ := htries.exists_near hearly
    exact lt_of_le_of_lt (hle p hp) hnear

/-- A target out of reach, and a start out of the limits. -/
theorem inverse?_best_out_of_reach :
    ∃ r : Joints ℝ,
      inverse? [3, 0, 0] (some [200, 0, 0, 0, 200]) (.number (.whole 3)) (.real (1 / 100)) =
        .ok r ∧ r.within = true ∧ r.gripper = 180 ∧
      r.miss ⟨39 / 20, 0, 0⟩ ≤ (⟨180, 0, 0, 0, 180⟩ : Joints ℝ).miss ⟨39 / 20, 0, 0⟩ := by
  have hτ : (.real (1 / 100) : Value ℝ).scalar? = .ok (1 / 100) := rfl
  obtain ⟨goal, hgoal, tried, early, r, -, hr, hbest⟩ :=
    inverse?_best ⟨3, 0, 0⟩ (some ⟨200, 0, 0, 0, 200⟩) 3 hτ
  obtain ⟨hwithin, hgripper, hmiss, -, -⟩ := hbest fun q _ => Joints.finite_real _ _
  have hreach : (intoReach [3, 0, 0] : List ℝ) = [39 / 20, 0, 0] := by
    unfold intoReach Point.length
    have hlength : Scalar.sqrt (3 * 3 : ℝ) = 3 := Real.sqrt_mul_self (by norm_num)
    simp [fullReach, upperArm, forearm, palm, fingers, hlength]
    norm_num
  obtain rfl : goal = ⟨39 / 20, 0, 0⟩ := by
    obtain ⟨x, y, z⟩ := goal
    have h := hgoal.symm.trans hreach
    simp [Point.toList] at h
    simp [h]
  have hstart : initial (some (⟨200, 0, 0, 0, 200⟩ : Joints ℝ)) = ⟨180, 0, 0, 0, 180⟩ := by
    norm_num [initial, Joints.clamp, Joints.map, Joint.clamp, Scalar.clamp_real, Joint.limit]
  rw [hstart] at hmiss
  refine ⟨r, hr, hwithin, hgripper.trans ?_, hmiss⟩
  norm_num [Joint.clamp, Scalar.clamp_real, Joint.limit]

end Answer

end Arm

end ArmRover
