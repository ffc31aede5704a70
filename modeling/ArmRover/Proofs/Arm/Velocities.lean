import ArmRover.Proofs.Arm.Advance
import ArmRover.Proofs.Settings.Standard

/-!
# The joint velocities add up to the motion

The arm remembers the angles that it measured last, and a reset makes it forget them. Each stretch
of time that counts measures the way since then, whatever else happened in between, so that the ways
between two resets add up to the whole motion.

* `Feedback.Call.Effective` — a stretch of time counts, `Feedback.Call.Measures` — what it measures.
* `Feedback.Chained` — each of many stretches measures from where the one before it did,
  `Feedback.chained_calls` — those of a run do, as long as nobody resets the arm.
* `Feedback.sum_of_chained` — the sum of such measurements, and `Feedback.velocities_telescope` —
  what the velocities tell after a reset.
-/

namespace ArmRover.Feedback

open ArmRover.Action

variable {rig : Rig ℝ} {s : Station ℝ} {e : Event ℝ} {events : List (Event ℝ)} {c : Call ℝ}
  {cs : List (Call ℝ)} {since : Option (Joints ℝ)} {q : Joints ℝ}

/-! ### One stretch -/

/-- The stretch of time counts. -/
def Call.Effective (c : Call ℝ) : Prop := Counts c.start c.dt

noncomputable instance : DecidablePred Call.Effective := fun _ => Classical.propDecidable _

/-- The velocity of a joint that the arm reports after the stretch. -/
def Call.velocity (c : Call ℝ) (j : Joint) : ℝ := c.finish.arm.velocities.get j

/-- The angle of a joint in the stretch. -/
def Call.angle (c : Call ℝ) (j : Joint) : ℝ := c.start.arm.joints.get j

/-- The stretch tells the velocities since the given angles were measured, or that there are none
if there was no such measurement. -/
structure Call.Measures (since : Option (Joints ℝ)) (c : Call ℝ) : Prop where
  dt_pos : 0 < c.dt
  velocities : c.finish.arm.velocities =
    rate (since.getD c.start.arm.joints) c.start.arm.joints c.dt

/-- The way of a joint is its velocity for as long as the stretch takes. -/
theorem Call.Measures.velocity_mul_dt (h : c.Measures (some q)) (j : Joint) :
    c.velocity j * c.dt = c.angle j - q.get j := by
  unfold velocity angle
  rw [h.velocities, rate, Joints.get_zipWith, div_mul_cancel₀ _ h.dt_pos.ne', Option.getD_some]

theorem Call.Measures.velocity_eq_zero (h : c.Measures none) (j : Joint) : c.velocity j = 0 := by
  unfold velocity
  rw [h.velocities, rate, Joints.get_zipWith, Option.getD_none, sub_self, zero_div]

theorem measures_of_counts {dt : ℝ} (h : Counts s dt) :
    (⟨s, dt, next rig s (.update dt)⟩ : Call ℝ).Measures s.arm.measured where
  dt_pos := h.2
  velocities := congrArg Arm.velocities (arm_of_advance rig.grip.strokeTime h)

/-! ### Many stretches -/

/-- Each stretch measures from where the one before it did. -/
def Chained (since : Option (Joints ℝ)) : List (Call ℝ) → Prop
  | [] => True
  | c :: rest => c.Measures since ∧ Chained (some c.start.arm.joints) rest

/-- The ways add up to that from the first angles to the last. -/
theorem sum_of_chained (h : Chained (some q) cs) (j : Joint) :
    (cs.map fun c => c.velocity j * c.dt).sum =
      (cs.getLast?.map fun c => c.angle j).getD (q.get j) - q.get j := by
  induction cs generalizing q with
  | nil => exact (sub_self _).symm
  | cons c rest ih =>
    have hrest : (rest.map fun c => c.velocity j * c.dt).sum =
        (rest.getLast?.getD c).angle j - c.angle j := by
      rw [ih h.2, show c.start.arm.joints.get j = c.angle j from rfl, Option.getD_map]
    rw [List.map_cons, List.sum_cons, h.1.velocity_mul_dt, hrest, List.getLast?_cons,
      Option.map_some, Option.getD_some]
    ring

theorem filter_of_counts (h : Counts c.start c.dt) :
    ((c :: cs).filter fun c => c.Effective) = c :: cs.filter fun c => c.Effective :=
  List.filter_cons_of_pos (decide_eq_true (show c.Effective from h))

theorem filter_of_not_counts (h : ¬ Counts c.start c.dt) :
    ((c :: cs).filter fun c => c.Effective) = cs.filter fun c => c.Effective :=
  List.filter_cons_of_neg (Bool.not_eq_true _ ▸ decide_eq_false (show ¬ c.Effective from h))

/-- Only time and a reset change what was measured last. -/
theorem measured_next (hdt : e.dt? = none) (hhome : e ≠ .home) :
    (next rig s e).arm.measured = s.arm.measured := by
  cases e with
  | update dt => cases hdt
  | setJoint number angle =>
    obtain ⟨joints, hnext⟩ := exists_next_setJoint rig s number angle
    rw [hnext]
  | setJoints angles =>
    obtain ⟨joints, hnext⟩ := exists_next_setJoints rig s angles
    rw [hnext]
  | home => exact absurd rfl hhome
  | grip | select => rfl

/-- Between two resets the stretches that count are chained, however they are mixed with others,
with writes of the joints and with switches to the other robot. -/
theorem chained_calls (h : .home ∉ events) :
    Chained s.arm.measured ((calls rig s events).filter fun c => c.Effective) := by
  induction events generalizing s with
  | nil => trivial
  | cons e rest ih =>
    obtain ⟨hhome, hrest⟩ := not_or.mp (mt List.mem_cons.mpr h)
    cases hdt : e.dt? with
    | none =>
      have hcalls : calls rig s (e :: rest) = calls rig (next rig s e) rest := by
        rw [calls, callIn, hdt]
        rfl
      rw [hcalls, ← measured_next hdt (Ne.symm hhome)]
      exact ih hrest
    | some dt =>
      obtain rfl : e = .update dt := by
        cases e with
        | update => exact congrArg Event.update (Option.some.inj hdt)
        | _ => cases hdt
      have hcalls : calls rig s (.update dt :: rest) =
          ⟨s, dt, next rig s (.update dt)⟩ :: calls rig (next rig s (.update dt)) rest := rfl
      rw [hcalls]
      by_cases hcounts : Counts s dt
      case pos =>
        have hmeasured : (next rig s (.update dt)).arm.measured = some s.arm.joints :=
          congrArg Arm.measured (arm_of_advance rig.grip.strokeTime hcounts)
        rw [filter_of_counts hcounts]
        exact ⟨measures_of_counts hcounts, hmeasured ▸ ih hrest⟩
      case neg =>
        have hnext : next rig s (.update dt) = s :=
          congrArg final (advance_of_not_counts rig.grip.strokeTime hcounts)
        rw [filter_of_not_counts hcounts, hnext]
        exact ih hrest

theorem finish_of_mem_calls (h : c ∈ calls rig s events) :
    c.finish = next rig c.start (.update c.dt) := by
  induction events generalizing s with
  | nil => cases h
  | cons e rest ih =>
    rcases List.mem_append.mp h with hhead | hlater
    · cases e with
      | update dt =>
        obtain rfl := Option.some.inj (Option.mem_toList.mp hhead)
        rfl
      | _ => cases hhead
    · exact ih hlater

/-- After a reset, until the next one, the velocities add up to the motion of the joints from the
first stretch of time that counts to the last. That first stretch reports no velocity, wherever the
joints were before the reset. A stretch that does not count changes nothing. -/
theorem velocities_telescope (rig : Rig ℝ) (s : Station ℝ) (h : .home ∉ events) :
    let all := calls rig (next rig s .home) events
    let effective := all.filter fun c => c.Effective
    (∀ first last, effective.head? = some first → effective.getLast? = some last → ∀ j,
        (effective.map fun c => c.velocity j * c.dt).sum = last.angle j - first.angle j) ∧
      (∀ first, effective.head? = some first → ∀ j, first.velocity j = 0) ∧
      ∀ c ∈ all, ¬ c.Effective →
        advance rig.grip.strokeTime c.dt c.start = .ok () c.start ∧ c.finish = c.start := by
  intro all effective
  have hchained : Chained none effective := chained_calls (s := next rig s .home) h
  refine ⟨fun first last hfirst hlast j => ?_, fun first hfirst => ?_, fun c hc hnot => ?_⟩
  · obtain ⟨rest, heffective⟩ := List.head?_eq_some_iff.mp hfirst
    rw [heffective] at hchained hlast ⊢
    rw [List.getLast?_cons, Option.some.injEq] at hlast
    have hrest := sum_of_chained hchained.2 j
    rw [show first.start.arm.joints.get j = first.angle j from rfl, Option.getD_map, hlast] at hrest
    rw [List.map_cons, List.sum_cons, hchained.1.velocity_eq_zero, zero_mul, zero_add, hrest]
  · obtain ⟨rest, heffective⟩ := List.head?_eq_some_iff.mp hfirst
    rw [heffective] at hchained
    exact hchained.1.velocity_eq_zero
  · have hadvance := advance_of_not_counts rig.grip.strokeTime hnot
    exact ⟨hadvance, (finish_of_mem_calls hc).trans (congrArg final hadvance)⟩

/-- An arm that is turned while the rover is driven. -/
theorem velocities_telescope_turned_meanwhile :
    let rig : Rig ℝ := Settings.standard.toRig
    let events : List (Event ℝ) := [.setJoint 0 30, .update (1 / 2), .select .rover, .update 1,
      .setJoint 0 60, .select .arm, .update (1 / 4)]
    let effective := (calls rig (next rig (.new rig) .home) events).filter fun c => c.Effective
    effective.map (·.dt) = [1 / 2, 1 / 4] ∧
      (effective.map fun c => c.velocity .base * c.dt).sum = 30 := by
  intro rig events effective
  have hhome : Event.home ∉ events := by
    simp only [events, List.mem_cons, reduceCtorEq, List.not_mem_nil, or_false, not_false_iff]
  have hhalf : Counts (next rig (next rig (.new rig) .home) (.setJoint 0 30)) (1 / 2) :=
    ⟨rfl, by norm_num⟩
  have hquarter (s : Station ℝ) : Counts (next rig s (.select .arm)) (1 / 4) :=
    ⟨rfl, by norm_num⟩
  have hrover (s : Station ℝ) : ¬ Counts (next rig s (.select .rover)) 1 :=
    fun h => nomatch h.1
  obtain ⟨first, last, heffective, hfirst, hlast⟩ : ∃ first last, effective = [first, last] ∧
      (first.dt = 1 / 2 ∧ first.angle .base = Joint.base.clamp 30) ∧
      last.dt = 1 / 4 ∧ last.angle .base = Joint.base.clamp 60 := by
    refine ⟨_, _, (filter_of_counts hhalf).trans (congrArg _
      ((filter_of_not_counts (hrover _)).trans (filter_of_counts (hquarter _)))), ⟨rfl, rfl⟩,
      rfl, rfl⟩
  obtain ⟨hsum, -, -⟩ := velocities_telescope rig (.new rig) hhome
  constructor
  · rw [heffective, List.map_cons, List.map_cons, hfirst.1, hlast.1, List.map_nil]
  · have hway := hsum first last (congrArg List.head? heffective)
      (congrArg List.getLast? heffective) .base
    rw [hfirst.2, hlast.2] at hway
    refine hway.trans ?_
    unfold Joint.clamp
    rw [Scalar.clamp_real, Scalar.clamp_real]
    norm_num [Joint.limit]

end ArmRover.Feedback
