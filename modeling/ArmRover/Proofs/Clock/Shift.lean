import ArmRover.Clock.Basic

/-!
# Shifted clocks

Two runs of the same events have clocks that differ by an offset: the times of one are those of the
other one, moved in a way that keeps every difference and every comparison, and its frames and
tickets are counted from other numbers. The offset does not show in what a clock is asked.

* `Offset` — how one run is offset against another one, `Offset.ofTickets` — runs at the same time
  whose tickets are counted from different numbers.
* `Clock.shift` — a clock with an offset.
* `Clock.register_shift`, `Clock.release_shift` and others — what happens to a clock happens to the
  shifted one in the same way.
* `Clock.shift_ofTickets_of_no_waits`, `Clock.shift_ofTickets_zero` — clocks of runs at the same
  time.
-/

namespace ArmRover

variable {α : Type} [Scalar α]

/-- How one run is offset against another one. -/
structure Offset (α : Type) [Scalar α] where
  time : α → α
  frames : Nat
  tickets : Nat
  time_add (x y : α) : time x + y = time (x + y)
  time_sub (x y : α) : time x - y = time (x - y)
  time_sub_time (x y : α) : time x - time y = x - y
  time_lt_time (x y : α) : time x < time y ↔ x < y
  time_le_time (x y : α) : time x ≤ time y ↔ x ≤ y

/-- The offset of runs at the same time, of which one counts its tickets from a larger number. -/
def Offset.ofTickets (tickets : Nat) : Offset α where
  time := id
  frames := 0
  tickets := tickets
  time_add _ _ := rfl
  time_sub _ _ := rfl
  time_sub_time _ _ := rfl
  time_lt_time _ _ := Iff.rfl
  time_le_time _ _ := Iff.rfl

variable (d : Offset α)

/-- The same moment in a shifted run. -/
def Due.shift : Due α → Due α
  | .time deadline => .time (d.time deadline)
  | .nextFrame => .nextFrame

/-- The same wait in a shifted run. -/
def Wait.shift (w : Wait α) : Wait α := ⟨w.ticket + d.tickets, w.due.shift d, w.since + d.frames⟩

/-- Tickets are told apart in the same way. -/
theorem Wait.ticket_shift_beq (w : Wait α) (ticket : Nat) :
    ((w.shift d).ticket == ticket + d.tickets) = (w.ticket == ticket) := by
  rw [Bool.eq_iff_iff, beq_iff_eq, beq_iff_eq]
  exact Nat.add_right_cancel_iff

namespace Clock

/-- The clock of a shifted run. -/
def shift (c : Clock α) : Clock α :=
  ⟨d.time c.now, c.frame + d.frames, c.waits.map (Wait.shift d), c.issued + d.tickets⟩

variable (c : Clock α)

@[simp] theorem now_shift : (c.shift d).now = d.time c.now := rfl

@[simp] theorem frame_shift : (c.shift d).frame = c.frame + d.frames := rfl

@[simp] theorem issued_shift : (c.shift d).issued = c.issued + d.tickets := rfl

@[simp] theorem pending_shift : (c.shift d).pending = c.pending := by
  simp [pending, shift]

/-! ### Events -/

theorem register_shift (due : Due α) :
    (c.shift d).register (due.shift d) = (c.register due).shift d := by
  simp [register, shift, Wait.shift, Nat.add_right_comm]

theorem drop_shift (ticket : Nat) :
    (c.shift d).drop (ticket + d.tickets) = (c.drop ticket).shift d := by
  simp only [drop, shift, List.filter_map]
  congr 2
  exact List.filter_congr fun w _ => congrArg (!·) (w.ticket_shift_beq d ticket)

theorem dropAll_shift : (c.shift d).dropAll = c.dropAll.shift d := rfl

theorem advance_shift (dt : α) : (c.shift d).advance dt = (c.advance dt).shift d := by
  simp only [advance, shift, Clock.mk.injEq]
  exact ⟨d.time_add _ _, Nat.add_right_comm _ _ _, trivial, trivial⟩

/-! ### Questions -/

theorem dueAfter_shift (p : Pause α) :
    (c.shift d).dueAfter p = (c.dueAfter p).map (Due.shift d) := by
  cases p with
  | nextFrame => rfl
  | sleep seconds =>
    simp only [dueAfter]
    split
    · rfl
    · simp only [Option.map_some, Due.shift, now_shift, d.time_add]

theorem isDue_shift (w : Wait α) : (c.shift d).isDue (w.shift d) = c.isDue w := by
  obtain ⟨ticket, due, since⟩ := w
  cases due with
  | nextFrame => simp [isDue, shift, Wait.shift, Due.shift]
  | time deadline =>
    apply decide_eq_decide.mpr
    show d.time deadline - slack ≤ d.time c.now ↔ deadline - slack ≤ c.now
    rw [d.time_sub, d.time_le_time]

theorem due_shift : (c.shift d).due = c.due.map (Wait.shift d) := by
  simp only [due, shift, List.filter_map]
  congr 1
  exact List.filter_congr fun w _ => isDue_shift d c w

theorem release_shift : (c.shift d).release = c.release.shift d := by
  simp only [release, shift, List.filter_map]
  congr 2
  exact List.filter_congr fun w _ => congrArg (!·) (isDue_shift d c w)

theorem any_ticket_shift (ws : List (Wait α)) (ticket : Nat) :
    (ws.map (Wait.shift d)).any (·.ticket == ticket + d.tickets) = ws.any (·.ticket == ticket) := by
  rw [List.any_map]
  exact congrArg ws.any (funext fun w => w.ticket_shift_beq d ticket)

end Clock

/-! ### Runs at the same time -/

theorem Due.shift_ofTickets (tickets : Nat) (due : Due α) :
    due.shift (.ofTickets tickets) = due := by
  cases due with
  | time deadline => rfl
  | nextFrame => rfl

/-- Where nothing waits only the tickets to come are different. -/
theorem Clock.shift_ofTickets_of_no_waits (tickets : Nat) {c : Clock α} (h : c.waits = []) :
    c.shift (.ofTickets tickets) = { c with issued := c.issued + tickets } := by
  obtain ⟨now, frame, waits, issued⟩ := c
  cases h
  rfl

@[simp] theorem Clock.shift_ofTickets_zero (c : Clock α) : c.shift (.ofTickets 0) = c := by
  have hwait : ∀ w : Wait α, w.shift (.ofTickets 0) = w :=
    fun w => congrArg (Wait.mk w.ticket · w.since) (w.due.shift_ofTickets 0)
  obtain ⟨now, frame, waits, issued⟩ := c
  exact congrArg (Clock.mk now frame · issued) (List.map_id'' hwait waits)

end ArmRover
