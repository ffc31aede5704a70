import ArmRover.Proofs.Arm.Advance
import ArmRover.Proofs.Settings.Standard

/-!
# The stroke of the gripper

While the gripper is asked for one thing, its fingers are on one way, and it makes no difference
into how many stretches a time is split: they are as far as the whole time brings them, or at the
end. Whatever it is asked for in between, they stay between closed and open, and each stretch tells
how fast they closed in it.

* `Station.Gripping`, `Feedback.Event.Gripping` — an arm whose gripper works, and events that leave
  it so, `Feedback.gripping_next`.
* `Feedback.opening_next`, `Feedback.opening_after` — the opening after one event, and after many.
* `Feedback.Call.Strokes` — what a stretch of time tells, `Feedback.strokes_of_mem_calls`.
* `Feedback.stroke_independent_of_split` — all of this together.
-/

namespace ArmRover

open ArmRover.Action

/-- The arm is active, its fingers are somewhere between closed and open, and there is a threshold
for the effort. -/
structure Station.Gripping (s : Station ℝ) : Prop where
  active : s.active = .arm
  opening_nonneg : 0 ≤ s.gripper.opening
  opening_le_one : s.gripper.opening ≤ 1
  maxEffort : s.gripper.maxEffort.IsNumber
  maxEffort_nonneg : 0 ≤ s.gripper.maxEffort.amount

/-- A threshold that is asked for is brought into the range from zero to one. -/
theorem Station.amount_setGripper (s : Station ℝ) (mode : Gripper.Mode) (e : ℝ) :
    (s.setGripper mode (some e)).gripper.maxEffort.amount = min (max e 0) 1 := by
  show Scalar.clamp e (Scalar.ofInt 0) (Scalar.ofInt 1) = _
  rw [Scalar.clamp_real, Scalar.ofInt_real, Scalar.ofInt_real, Int.cast_zero, Int.cast_one]

/-- The fingers have a time for their stroke. -/
structure Settings.Grip.Moves (grip : Settings.Grip ℝ) : Prop where
  strokeTime : grip.strokeTime.IsNumber
  strokeTime_pos : 0 < grip.strokeTime.amount

theorem Settings.strokeTime_standard :
    (Settings.standard : Settings ℝ).grip.strokeTime.amount = 1 / 4 :=
  (Value.amount_decimal 25 2).trans (by norm_num)

theorem Settings.moves_standard : (Settings.standard : Settings ℝ).grip.Moves where
  strokeTime := ⟨_, rfl⟩
  strokeTime_pos := strokeTime_standard.symm ▸ by positivity

namespace Feedback

/-- Events with which the arm stays active and is not brought home, and in which time that passes
has a length. -/
def Event.Gripping : Event ℝ → Prop
  | update dt => 0 < dt
  | select robot => robot = .arm
  | home => False
  | grip .. | setJoint .. | setJoints _ => True

/-- The time that passes in events. -/
def total (events : List (Event ℝ)) : ℝ := (events.filterMap Event.dt?).sum

theorem total_cons (e : Event ℝ) (events : List (Event ℝ)) :
    total (e :: events) = e.dt?.getD 0 + total events := by
  unfold total
  cases h : e.dt? with
  | none => rw [List.filterMap_cons_none h, Option.getD_none, zero_add]
  | some dt => rw [List.filterMap_cons_some h, List.sum_cons, Option.getD_some]

theorem Event.Gripping.dt_nonneg {e : Event ℝ} (h : e.Gripping) : 0 ≤ e.dt?.getD 0 := by
  cases e with
  | update dt => exact le_of_lt h
  | _ => exact le_refl _

theorem total_nonneg {events : List (Event ℝ)} (h : ∀ e ∈ events, e.Gripping) :
    0 ≤ total events := by
  induction events with
  | nil => exact le_refl _
  | cons e rest ih =>
    obtain ⟨he, hrest⟩ := List.forall_mem_cons.mp h
    rw [total_cons]
    exact add_nonneg he.dt_nonneg (ih hrest)

/-! ### One event -/

variable {rig : Rig ℝ} {s : Station ℝ} {e : Event ℝ} {events : List (Event ℝ)}

/-- What an event can do: time moves the fingers, a request to the gripper does not move them yet,
and all else has nothing to do with them. -/
theorem next_cases (hgrip : rig.grip.Moves) (hs : s.Gripping) (he : e.Gripping) :
    (∃ dt gripper, 0 < dt ∧ e = .update dt ∧
        advance rig.grip.strokeTime dt s = .ok () (next rig s e) ∧
        next rig s e = { s with arm := measure s.arm dt, gripper } ∧
        Travelled rig.grip.strokeTime.amount dt s.gripper gripper) ∨
      (∃ mode maxEffort, e = .grip mode maxEffort ∧ next rig s e = s.setGripper mode maxEffort) ∨
      e.dt? = none ∧ ∃ joints, next rig s e = { s with arm := { s.arm with joints } } := by
  cases e with
  | update dt =>
    obtain ⟨gripper, hadvance, htravelled⟩ := exists_advance hgrip.strokeTime hgrip.strokeTime_pos
      ⟨hs.active, he⟩ hs.maxEffort hs.opening_nonneg hs.opening_le_one
    have hnext : next rig s (.update dt) = { s with arm := measure s.arm dt, gripper } :=
      congrArg final hadvance
    exact .inl ⟨dt, gripper, he, rfl, hnext ▸ hadvance, hnext, htravelled⟩
  | grip mode maxEffort => exact .inr (.inl ⟨mode, maxEffort, rfl, rfl⟩)
  | setJoint number angle => exact .inr (.inr ⟨rfl, exists_next_setJoint rig s number angle⟩)
  | setJoints angles => exact .inr (.inr ⟨rfl, exists_next_setJoints rig s angles⟩)
  | select robot =>
    have hactive : robot = s.active := Eq.trans he hs.active.symm
    subst hactive
    exact .inr (.inr ⟨rfl, s.arm.joints, rfl⟩)
  | home => exact he.elim

/-- A gripper that works still does after a stretch of time. -/
theorem Travelled.gripping {stroke dt : ℝ} {gripper : Gripper ℝ} {arm : Arm ℝ}
    (h : Travelled stroke dt s.gripper gripper) (hs : s.Gripping) (hstroke : 0 < stroke)
    (hdt : 0 < dt) : ({ s with arm, gripper } : Station ℝ).Gripping := by
  refine ⟨hs.active, h.opening_nonneg hstroke hdt hs.opening_nonneg,
    h.opening_le_one hstroke hdt hs.opening_le_one, ?_, ?_⟩
  · exact h.maxEffort ▸ hs.maxEffort
  · exact h.maxEffort ▸ hs.maxEffort_nonneg

/-- No threshold that is asked for is below zero. -/
theorem gripping_setGripper (hs : s.Gripping) (mode : Gripper.Mode) (maxEffort : Option ℝ) :
    (s.setGripper mode maxEffort).Gripping := by
  cases maxEffort with
  | none => exact { hs with }
  | some e =>
    refine { hs with maxEffort := ⟨_, rfl⟩, maxEffort_nonneg := ?_ }
    rw [Station.amount_setGripper]
    exact le_min (le_max_right _ _) zero_le_one

theorem gripping_next (hgrip : rig.grip.Moves) (hs : s.Gripping) (he : e.Gripping) :
    (next rig s e).Gripping := by
  rcases next_cases hgrip hs he with
    ⟨dt, gripper, hdt, -, -, hnext, htravelled⟩ | ⟨mode, maxEffort, -, hnext⟩ | ⟨-, joints, hnext⟩
  · rw [hnext]
    exact htravelled.gripping hs hgrip.strokeTime_pos hdt
  · rw [hnext]
    exact gripping_setGripper hs mode maxEffort
  · rw [hnext]
    exact { hs with }

/-- Only time moves the fingers, and the mode decides which way. -/
theorem opening_next (hgrip : rig.grip.Moves) (hs : s.Gripping) (he : e.Gripping) :
    (next rig s e).gripper.opening = Gripper.reached s.gripper.mode s.gripper.opening
      (e.dt?.getD 0 / rig.grip.strokeTime.amount) := by
  have hstill : Gripper.reached s.gripper.mode s.gripper.opening
      (0 / rig.grip.strokeTime.amount) = s.gripper.opening := by
    rw [zero_div, Gripper.reached_zero _ hs.opening_nonneg hs.opening_le_one]
  rcases next_cases hgrip hs he with
    ⟨dt, gripper, -, rfl, -, hnext, htravelled⟩ | ⟨mode, maxEffort, rfl, hnext⟩ |
    ⟨hdt, joints, hnext⟩
  · rw [hnext]
    exact htravelled.opening
  · rw [hnext]
    exact hstill.symm
  · rw [hnext, hdt]
    exact hstill.symm

theorem mode_next (hgrip : rig.grip.Moves) (hs : s.Gripping) (he : e.Gripping)
    (hmode : ∀ mode maxEffort, e = .grip mode maxEffort → mode = s.gripper.mode) :
    (next rig s e).gripper.mode = s.gripper.mode := by
  rcases next_cases hgrip hs he with
    ⟨dt, gripper, -, -, -, hnext, htravelled⟩ | ⟨mode, maxEffort, rfl, hnext⟩ | ⟨-, joints, hnext⟩
  · rw [hnext]
    exact htravelled.mode
  · rw [hnext]
    exact hmode mode maxEffort rfl
  · rw [hnext]

/-! ### Many events -/

/-- While the mode stays the same, the fingers go as far as the whole time brings them. -/
theorem opening_after (hgrip : rig.grip.Moves) (hs : s.Gripping)
    (hevents : ∀ e ∈ events, e.Gripping)
    (hmode : ∀ mode maxEffort, .grip mode maxEffort ∈ events → mode = s.gripper.mode) :
    (after rig s events).gripper.opening = Gripper.reached s.gripper.mode s.gripper.opening
      (total events / rig.grip.strokeTime.amount) := by
  induction events generalizing s with
  | nil =>
    show s.gripper.opening = Gripper.reached _ _ (0 / _)
    rw [zero_div, Gripper.reached_zero _ hs.opening_nonneg hs.opening_le_one]
  | cons e rest ih =>
    obtain ⟨he, hrest⟩ := List.forall_mem_cons.mp hevents
    have hkept : (next rig s e).gripper.mode = s.gripper.mode :=
      mode_next hgrip hs he fun mode maxEffort h => hmode mode maxEffort (h ▸ List.mem_cons_self)
    have hlater : 0 ≤ total rest / rig.grip.strokeTime.amount :=
      div_nonneg (total_nonneg hrest) hgrip.strokeTime_pos.le
    have hih := ih (gripping_next hgrip hs he) hrest fun mode maxEffort h =>
      hkept ▸ hmode mode maxEffort (List.mem_cons_of_mem _ h)
    show (after rig (next rig s e) rest).gripper.opening = _
    rw [hih, hkept, opening_next hgrip hs he, Gripper.reached_reached _ _ hlater, ← add_div,
      total_cons]

theorem gripping_after (hgrip : rig.grip.Moves) (hs : s.Gripping)
    (hevents : ∀ e ∈ events, e.Gripping) : (after rig s events).Gripping := by
  induction events generalizing s with
  | nil => exact hs
  | cons e rest ih =>
    obtain ⟨he, hrest⟩ := List.forall_mem_cons.mp hevents
    exact ih (gripping_next hgrip hs he) hrest

/-- What a stretch of time tells: it answers, the fingers are between closed and open before and
after it, and the effort is the part of the full speed with which they closed, up to the
threshold. -/
structure Call.Strokes (strokeTime : Value ℝ) (c : Call ℝ) : Prop where
  answers : advance strokeTime c.dt c.start = .ok () c.finish
  opening_nonneg : 0 ≤ c.finish.gripper.opening
  opening_le_one : c.finish.gripper.opening ≤ 1
  effort : c.finish.gripper.effort.value = min c.start.gripper.maxEffort.amount
    (max 0 (c.start.gripper.opening - c.finish.gripper.opening) * strokeTime.amount / c.dt)
  effort_of_le : c.start.gripper.opening ≤ c.finish.gripper.opening →
    c.finish.gripper.effort.value = 0
  effort_le_maxEffort : c.finish.gripper.effort.value ≤ c.start.gripper.maxEffort.amount
  effort_le_one : c.finish.gripper.effort.value ≤ 1

/-- The call of a gripper that works. -/
theorem Travelled.strokes {dt : ℝ} {t : Station ℝ} (hgrip : rig.grip.Moves) (hs : s.Gripping)
    (hdt : 0 < dt) (hadvance : advance rig.grip.strokeTime dt s = .ok () t)
    (h : Travelled rig.grip.strokeTime.amount dt s.gripper t.gripper) :
    Call.Strokes rig.grip.strokeTime ⟨s, dt, t⟩ := by
  have hpos := hgrip.strokeTime_pos
  refine ⟨hadvance, h.opening_nonneg hpos hdt hs.opening_nonneg,
    h.opening_le_one hpos hdt hs.opening_le_one, h.effort, fun hle => ?_, h.effort_le_maxEffort,
    h.effort_le_one hpos hdt hs.opening_le_one⟩
  show t.gripper.effort.value = 0
  rw [h.effort, max_eq_left (sub_nonpos.mpr hle), zero_mul, zero_div,
    min_eq_right hs.maxEffort_nonneg]

theorem strokes_of_mem_calls (hgrip : rig.grip.Moves) (hs : s.Gripping)
    (hevents : ∀ e ∈ events, e.Gripping) :
    ∀ c ∈ calls rig s events, c.Strokes rig.grip.strokeTime := by
  induction events generalizing s with
  | nil => exact List.forall_mem_nil _
  | cons e rest ih =>
    obtain ⟨he, hrest⟩ := List.forall_mem_cons.mp hevents
    refine List.forall_mem_append.mpr ⟨fun c hc => ?_, ih (gripping_next hgrip hs he) hrest⟩
    rw [Option.mem_toList] at hc
    rcases next_cases hgrip hs he with
      ⟨dt, gripper, hdt, rfl, hadvance, hnext, htravelled⟩ | ⟨mode, maxEffort, rfl, -⟩ | ⟨hnone, -⟩
    · obtain rfl : ⟨s, dt, next rig s (.update dt)⟩ = c := Option.some.inj hc
      refine Travelled.strokes hgrip hs hdt hadvance ?_
      rw [hnext]
      exact htravelled
    · cases hc
    · rw [callIn, hnone] at hc
      cases hc

/-- The motion of the fingers does not depend on how time is split. While the mode stays the same,
they are where one stretch as long as all of them together would bring them. Whatever happens to the
mode, they stay between closed and open, and each stretch tells how fast they closed in it. -/
theorem stroke_independent_of_split (hgrip : rig.grip.Moves) (hs : s.Gripping)
    (hevents : ∀ e ∈ events, e.Gripping) :
    ((∀ mode maxEffort, .grip mode maxEffort ∈ events → mode = s.gripper.mode) →
      (s.gripper.mode = .open → (after rig s events).gripper.opening =
        min 1 (s.gripper.opening + total events / rig.grip.strokeTime.amount)) ∧
      (s.gripper.mode = .closed → (after rig s events).gripper.opening =
        max 0 (s.gripper.opening - total events / rig.grip.strokeTime.amount))) ∧
    (0 ≤ (after rig s events).gripper.opening ∧ (after rig s events).gripper.opening ≤ 1) ∧
    ∀ c ∈ calls rig s events, c.Strokes rig.grip.strokeTime := by
  have hafter := gripping_after hgrip hs hevents
  refine ⟨fun hmode => ?_, ⟨hafter.opening_nonneg, hafter.opening_le_one⟩,
    strokes_of_mem_calls hgrip hs hevents⟩
  have hopening := opening_after hgrip hs hevents hmode
  constructor
  · intro hopen
    rw [hopening, hopen]
    rfl
  · intro hclosed
    rw [hopening, hclosed]
    rfl

/-- Fingers that close with half the effort, in two stretches of which the second is longer than
they need. -/
theorem stroke_independent_of_split_partly_closed :
    let rig : Rig ℝ := Settings.standard.toRig
    let s : Station ℝ :=
      { Station.new rig with gripper := { Gripper.home rig.grip with opening := 1 } }
    let events : List (Event ℝ) :=
      [.grip .closed (some (1 / 2)), .update (1 / 10), .update (1 / 4)]
    (after rig s events).gripper.opening = 0 ∧ (calls rig s events).map (·.dt) = [1 / 10, 1 / 4] ∧
      ∀ c ∈ calls rig s events, c.Strokes rig.grip.strokeTime := by
  intro rig s events
  have hs : s.Gripping :=
    { active := rfl
      opening_nonneg := zero_le_one
      opening_le_one := le_refl _
      maxEffort := ⟨_, rfl⟩
      maxEffort_nonneg := Value.amount_decimal (8 : ℕ) 1 ▸ by positivity }
  have hevents : ∀ e ∈ events, e.Gripping := by
    refine List.forall_mem_cons.mpr ⟨trivial, List.forall_mem_cons.mpr ⟨?_,
      List.forall_mem_cons.mpr ⟨?_, List.forall_mem_nil _⟩⟩⟩
    · show (0 : ℝ) < 1 / 10
      norm_num
    · show (0 : ℝ) < 1 / 4
      norm_num
  have hmode : ∀ mode maxEffort, .grip mode maxEffort ∈ events → mode = s.gripper.mode := by
    intro mode maxEffort h
    simp only [events, List.mem_cons, Event.grip.injEq, reduceCtorEq, List.not_mem_nil, or_false]
      at h
    exact h.1
  obtain ⟨hopening, -, hstrokes⟩ := stroke_independent_of_split Settings.moves_standard hs hevents
  refine ⟨?_, rfl, hstrokes⟩
  rw [(hopening hmode).2 rfl, Settings.strokeTime_standard]
  show max 0 (1 - (1 / 10 + (1 / 4 + 0)) / (1 / 4)) = (0 : ℝ)
  norm_num

end Feedback

end ArmRover
