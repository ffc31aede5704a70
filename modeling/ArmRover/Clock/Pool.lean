import ArmRover.Clock.Basic
import ArmRover.Value.Basic

/-!
# Tasks on one clock

Any number of tasks that share a clock. A task makes one pause after the other and tells when it
wakes up. Tasks run one at a time, and only from one pause to the next.

* `Pool` — the clock and the tasks that wait.
* `Pool.spawn`, `Pool.advance`, `Pool.release`, `Pool.cancel`, `Pool.cancelSleepers` — what can
  happen, each with the tidings of the tasks that it made run.
-/

namespace ArmRover

/-- A task that waits. -/
structure Sleeper (α : Type) where
  /-- The number of the task, in the order in which the tasks were spawned. -/
  number : Nat
  name : String
  /-- The ticket of the wait that it is in. -/
  ticket : Nat
  /-- The pauses after that. -/
  rest : List (Pause α)

/-- What a task tells. -/
inductive Tiding (α : Type) where
  | woke (name : String) (now : α)
  | cancelled (name : String)

/-- Tasks that share a clock. The sleepers are in the order of their waits. -/
structure Pool (α : Type) where
  clock : Clock α
  sleepers : List (Sleeper α)
  /-- The number of the last task that was spawned under each name. -/
  numbers : Fields Nat
  /-- The number of tasks that have been spawned. -/
  spawned : Nat

namespace Pool

/-- A pool without tasks, at a time. -/
def start (now : α) : Pool α := ⟨.start now, [], [], 0⟩

variable [Scalar α]

/-- Run a task until it has to wait: the pauses that are left are made in order, and after each the
task tells that it is awake. -/
def run (number : Nat) (name : String) : List (Pause α) → Pool α → List (Tiding α) × Pool α
  | [], p => ([], p)
  | pause :: rest, p =>
    match p.clock.dueAfter pause with
    | none =>
      let (tidings, p') := run number name rest p
      (.woke name p.clock.now :: tidings, p')
    | some due =>
      ([], { p with
        clock := p.clock.register due
        sleepers := p.sleepers ++ [⟨number, name, p.clock.issued, rest⟩] })

/-- Run a new task until it first waits. -/
def spawn (p : Pool α) (name : String) (pauses : List (Pause α)) : List (Tiding α) × Pool α :=
  run p.spawned name pauses
    { p with numbers := p.numbers.put name p.spawned, spawned := p.spawned + 1 }

/-- Let one frame pass. -/
def advance (p : Pool α) (dt : α) : Pool α := { p with clock := p.clock.advance dt }

/-- Run sleepers on, one after the other. -/
def wakeSleepers : List (Sleeper α) → Pool α → List (Tiding α) × Pool α
  | [], p => ([], p)
  | s :: others, p =>
    let (first, p') := run s.number s.name s.rest p
    let (rest, p'') := wakeSleepers others p'
    (.woke s.name p.clock.now :: first ++ rest, p'')

/-- Release the waits whose time has come, and run their tasks in the order of the waits. The first
answer is the number of waits released. -/
def release (p : Pool α) : Nat × List (Tiding α) × Pool α :=
  let tickets := p.clock.due.map (·.ticket)
  let (woken, asleep) := p.sleepers.partition fun s => tickets.contains s.ticket
  (tickets.length, wakeSleepers woken { p with clock := p.clock.release, sleepers := asleep })

omit [Scalar α] in
/-- Cancel the task that was last spawned under a name. A task that does not wait is done. -/
def cancel (p : Pool α) (name : String) : List (Tiding α) × Pool α :=
  match p.sleepers.find? fun s => p.numbers.get? name == some s.number with
  | none => ([], p)
  | some s =>
    ([.cancelled s.name], { p with
      clock := p.clock.drop s.ticket
      sleepers := p.sleepers.filter (·.number != s.number) })

omit [Scalar α] in
/-- Cancel all waits, and with them the tasks. -/
def cancelSleepers (p : Pool α) : List (Tiding α) × Pool α :=
  (p.sleepers.map fun s => .cancelled s.name,
    { p with clock := p.clock.dropAll, sleepers := [] })

end Pool

end ArmRover
