import ArmRover.Execution.Step

/-!
# Executions

A program under way. It runs from one wait to the next: whoever releases its wait resumes it, and
it answers with its next wait or its end.

* `Execution` — what is left of a program, `Progress` — how far it has come.
* `Execution.begin`, `Execution.resume` — from the start, or from a wait, to the next wait.
* `Execution.sleepsLeft` — how many times it can still sleep.
-/

namespace ArmRover

/-- What is left of a program. -/
structure Execution (α : Type) where
  /-- The steps of the command that is under way. -/
  steps : List (Step α)
  /-- The commands after it. -/
  commands : List (Command α)
  /-- The readings so far. -/
  readings : List (Value α)

/-- How far a program has come. -/
inductive Progress (α : Type) where
  | waiting (ticket : Nat) (rest : Execution α)
  | done (readings : List (Value α))

namespace Execution

variable [Scalar α]

/-- Take steps until one has to wait. The readings that are handed out join the ones before. The
last answer is the wait, and the steps after it. -/
def takeSteps (cfg : Settings α) :
    List (Step α) → List (Value α) →
      Action α (Scene α) (List (Value α) × Option (Nat × List (Step α)))
  | [], readings => return (readings, none)
  | step :: rest, readings => do
    match ← step.take cfg with
    | .done => takeSteps cfg rest readings
    | .reading distance => takeSteps cfg rest (readings ++ [distance])
    | .waits ticket again => return (readings, some (ticket, again ++ rest))

/-- Run steps, and then commands, up to the next wait. -/
def run (cfg : Settings α) :
    List (Command α) → List (Step α) → List (Value α) → Action α (Scene α) (Progress α)
  | commands, steps, readings => do
    match ← takeSteps cfg steps readings with
    | (readings, some (ticket, steps)) => return .waiting ticket ⟨steps, commands, readings⟩
    | (readings, none) =>
      match commands with
      | [] => return .done readings
      | command :: rest =>
        let steps ← Action.lift (command.steps? cfg (← get))
        run cfg rest steps readings

/-- Start a program: the active robot goes home, and after a pause the commands for it are carried
out. The commands for the other robot are passed over. -/
def begin (cfg : Settings α) (commands : List (Command α)) : Action α (Scene α) (Progress α) := do
  let active := (← get).station.active
  modify (·.onStation (·.home cfg.toRig))
  run cfg (commands.filter fun c => c.robot == active) [Step.pausing cfg.pauses.reset] []

/-- Go on after a wait. -/
def resume (cfg : Settings α) (rest : Execution α) : Action α (Scene α) (Progress α) :=
  run cfg rest.commands rest.steps rest.readings

/-! ### Sleeps -/

-- Sums start from the core library's zero, whatever algebra is imported.
attribute [local instance (high)] Zero.ofOfNat0

/-- How many times a step can sleep. -/
def stepSleeps : Step α → Nat
  | .sleep _ => 1
  | _ => 0

/-- How many times a command can sleep. -/
def commandSleeps (cfg : Settings α) : Command α → Nat
  | .moveJoint .. | .other .. => 0
  | .moveToPose _ =>
    match cfg.motion.segments.number? with
    | .ok (.whole n) => n.toNat + 1
    | _ => 0
  | _ => 1

/-- How many times commands can sleep. -/
def commandsSleeps (cfg : Settings α) (commands : List (Command α)) : Nat :=
  (commands.map (commandSleeps cfg)).sum

/-- How many times the rest of a program can sleep. -/
def sleepsLeft (cfg : Settings α) (rest : Execution α) : Nat :=
  (rest.steps.map stepSleeps).sum + commandsSleeps cfg rest.commands

end Execution

end ArmRover
