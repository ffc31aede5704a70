import ArmRover.Scalar.Basic

/-!
# The clock

Simulated time, and the waits for it. Time moves by frames, and only when the simulation advances
it. Every wait has a ticket of its own; it is over once it is released or cancelled.

* `Pause`, `Due` — how long to wait, and what a wait is for.
* `Clock` — the time, the frame, and the open waits in the order in which they were registered.
* `Clock.register`, `Clock.drop`, `Clock.dropAll` — opening a wait, and giving it up.
* `Clock.due`, `Clock.release` — the waits whose time has come, and the clock without them.
-/

namespace ArmRover

/-- How long to wait: for so many seconds, or for the next frame. -/
inductive Pause (α : Type) where
  | sleep (seconds : α)
  | nextFrame

/-- What a wait is for: a time, or a frame after the one in which it was registered. -/
inductive Due (α : Type) where
  | time (deadline : α)
  | nextFrame

/-- An open wait. -/
structure Wait (α : Type) where
  ticket : Nat
  due : Due α
  /-- The frame in which it was registered. -/
  since : Nat

/-- Time in seconds, the number of frames so far, the open waits, and the number of tickets that
have been given out. -/
structure Clock (α : Type) where
  now : α
  frame : Nat
  waits : List (Wait α)
  issued : Nat

namespace Clock

/-- A clock that starts at a time. -/
def start (now : α) : Clock α := ⟨now, 0, [], 0⟩

/-- The number of open waits. -/
def pending (c : Clock α) : Nat := c.waits.length

/-- Open a wait, with the ticket `c.issued`. -/
def register (c : Clock α) (due : Due α) : Clock α :=
  { c with waits := c.waits ++ [⟨c.issued, due, c.frame⟩], issued := c.issued + 1 }

/-- Give up the wait with a ticket. -/
def drop (c : Clock α) (ticket : Nat) : Clock α :=
  { c with waits := c.waits.filter (·.ticket != ticket) }

/-- Give up all waits. -/
def dropAll (c : Clock α) : Clock α := { c with waits := [] }

@[simp] theorem waits_register (c : Clock α) (d : Due α) :
    (c.register d).waits = c.waits ++ [⟨c.issued, d, c.frame⟩] := rfl

@[simp] theorem pending_register (c : Clock α) (d : Due α) :
    (c.register d).pending = c.pending + 1 := by
  simp [pending]

@[simp] theorem pending_dropAll (c : Clock α) : c.dropAll.pending = 0 := rfl

variable [Scalar α]

/-- The slack with which sums of frame times are compared with deadlines. -/
def slack : α := 1e-9

/-- What a pause waits for from now on. A sleep of no length does not wait. -/
def dueAfter (c : Clock α) : Pause α → Option (Due α)
  | .nextFrame => some .nextFrame
  | .sleep seconds => if seconds ≤ 0 then none else some (.time (c.now + seconds))

/-- Move on by one frame that takes so long. -/
def advance (c : Clock α) (dt : α) : Clock α := { c with now := c.now + dt, frame := c.frame + 1 }

/-- Whether the time of a wait has come. -/
def isDue (c : Clock α) (w : Wait α) : Bool :=
  match w.due with
  | .time deadline => deadline - slack ≤ c.now
  | .nextFrame => w.since < c.frame

/-- The waits whose time has come. -/
def due (c : Clock α) : List (Wait α) := c.waits.filter c.isDue

/-- The clock after the waits whose time has come are released. -/
def release (c : Clock α) : Clock α := { c with waits := c.waits.filter fun w => !c.isDue w }

@[simp] theorem waits_advance (c : Clock α) (dt : α) : (c.advance dt).waits = c.waits := rfl

/-- Releasing splits the open waits: some are over, the others stay. -/
theorem length_due_add_pending_release (c : Clock α) :
    c.due.length + c.release.pending = c.pending := by
  simp only [due, release, pending]
  induction c.waits with
  | nil => rfl
  | cons w rest ih => cases h : c.isDue w <;> simp [h] <;> omega

end Clock

end ArmRover
