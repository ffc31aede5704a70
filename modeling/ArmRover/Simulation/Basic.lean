import ArmRover.Execution.Basic
import ArmRover.Arm.Feedback
import ArmRover.Program.Reader
import ArmRover.Rover.Drive
import ArmRover.Rover.Sensors

/-!
# The simulation

One station in one world, and at most one program. In every frame the clock moves on, the robots
move, the sensors look, and then the program runs until it waits for a later frame.

* `Simulation` — the scene, the world and the program, `Simulation.new` — a new one.
* `Simulation.start`, `Simulation.startText`, `Simulation.cancel`, `Simulation.reset`,
  `Simulation.switchTo` — requests.
* `Simulation.frame` — one frame.
* `Simulation.runToEnd`, `Simulation.elapse` — many frames, at most as many as are granted.
-/

namespace ArmRover

/-- A program that was given to the simulation. -/
inductive Job (α : Type) where
  /-- It runs for the first time in the next frame. -/
  | fresh (commands : List (Command α))
  | waiting (ticket : Nat) (rest : Execution α)
  /-- It was cancelled and takes notice of that in the next frame. -/
  | cancelling
  | cancelled
  | failed (fault : Fault α)
  | finished (readings : List (Value α))

/-- Whether a program has not come to its end. -/
def Job.running : Job α → Bool
  | fresh _ | waiting .. | cancelling => true
  | cancelled | failed _ | finished _ => false

/-- The state of a simulation. -/
structure Simulation (α : Type) where
  scene : Scene α
  world : World α
  /-- The last program, unless it was reset. -/
  job : Option (Job α)

namespace Simulation

/-- Whether a program has not come to its end. -/
def running (s : Simulation α) : Bool := s.job.any Job.running

/-- Act on the station. -/
def onStation (act : Action α (Station α) β) : Action α (Simulation α) β :=
  Action.on (·.scene.station) (fun s station => { s with scene := { s.scene with station } }) act

/-- Change the clock. -/
def onClock (f : Clock α → Clock α) : Action α (Simulation α) Unit :=
  modify fun s => { s with scene := { s.scene with clock := f s.scene.clock } }

/-- Put obstacles into the world. -/
def addObstacles (obstacles : World α) (s : Simulation α) : Simulation α :=
  { s with world := s.world ++ obstacles }

/-- Empty the world. -/
def clearWorld (s : Simulation α) : Simulation α := { s with world := [] }

variable [Scalar α]

/-- A simulation at time 0. -/
def new (cfg : Settings α) (world : World α) : Simulation α :=
  { scene := ⟨Station.new cfg.toRig, Clock.start 0⟩, world, job := none }

/-! ### Requests -/

/-- Make the robot with a name the active one, unless a program runs. -/
def switchTo (name : String) : Action α (Simulation α) Unit := do
  if (← get).running then throw .robotLocked
  match Robot.named? name with
  | some robot => onStation (modify fun s => { s with active := robot })
  | none => throw .unknownRobot

/-- Start a program, unless one runs. -/
def start (commands : List (Command α)) : Action α (Simulation α) Unit := do
  if (← get).running then throw .alreadyRunning
  modify fun s => { s with job := some (.fresh commands) }

/-- Start the commands of a program text, if it has any. The answer is the commands. -/
def startText (text : String) : Action α (Simulation α) (List (Command α)) := do
  let commands ← Action.lift (Program.commands? false text.toList)
  if commands.isEmpty then return []
  start commands
  return commands

/-- Cancel the program. Its wait is over at once, but it counts as running until the next frame. -/
def cancel : Action α (Simulation α) Unit := do
  match (← get).job with
  | some (.fresh _) => modify fun s => { s with job := some .cancelling }
  | some (.waiting ticket _) =>
    onClock (·.drop ticket)
    modify fun s => { s with job := some .cancelling }
  | some _ => return
  | none => throw .noProgram

/-- Drop the program and all waits, and bring the active robot home. -/
def reset (cfg : Settings α) : Action α (Simulation α) Unit := do
  modify fun s => { s with job := none }
  onClock (·.dropAll)
  onStation (modify fun s => Sensors.reset (s.home cfg.toRig))

/-! ### Frames -/

/-- Let the program run. A fault ends it, and stays with it. -/
def advanceJob (act : Action α (Scene α) (Progress α)) (s : Simulation α) : Simulation α :=
  match act s.scene with
  | .ok (.waiting ticket rest) scene => { s with scene, job := some (.waiting ticket rest) }
  | .ok (.done readings) scene => { s with scene, job := some (.finished readings) }
  | .error fault scene => { s with scene, job := some (.failed fault) }

/-- Let a program run that was started or cancelled since the last frame. -/
def runReady (cfg : Settings α) (s : Simulation α) : Simulation α :=
  match s.job with
  | some (.fresh commands) => s.advanceJob (Execution.begin cfg commands)
  | some .cancelling => { s with job := some .cancelled }
  | _ => s

/-- Release the waits whose time has come, and resume the program if its wait is one of them. The
first answer is the number of waits released. -/
def wake (cfg : Settings α) (s : Simulation α) : Nat × Simulation α :=
  let due := s.scene.clock.due
  let s := { s with scene := { s.scene with clock := s.scene.clock.release } }
  match s.job with
  | some (.waiting ticket rest) =>
    if due.any (·.ticket == ticket) then (due.length, s.advanceJob (Execution.resume cfg rest))
    else (due.length, s)
  | _ => (due.length, s)

/-- Release waits until none is due, at most so many times. -/
def settle (cfg : Settings α) : Nat → Simulation α → Simulation α
  | 0, s => s
  | n + 1, s =>
    match s.wake cfg with
    | (0, s) => s
    | (_ + 1, s) => settle cfg n s

/-- How many times a program can sleep before its end, the sleep it is in included. -/
def sleepsLeft (cfg : Settings α) (s : Simulation α) : Nat :=
  match s.job with
  | some (.waiting _ rest) => rest.sleepsLeft cfg + 1
  | _ => 0

/-- One frame: the arm and the rover move, the sensors look, and the program runs until it waits
for a later frame. Every release but the last two ends a sleep, which bounds their number. -/
def frame (cfg : Settings α) (dt : α) : Action α (Simulation α) Unit := do
  onClock (·.advance dt)
  let s ← get
  let now := s.scene.clock.now
  onStation (Feedback.advance cfg.grip.strokeTime dt)
  onStation (Drive.advance cfg.driving dt now)
  onStation (Sensors.refresh cfg.senses cfg.mapping s.world now)
  modify fun s =>
    let s := s.runReady cfg
    s.settle cfg (s.sleepsLeft cfg + 2)

/-- The fault of a program that still runs after some time, if there is one: the time has reached
the limit, or the limit is no number. Null is no limit. -/
def expired? (limit : Value α) (elapsed : α) : Option (Fault α) :=
  match limit with
  | .null => none
  | limit =>
    match limit.number? with
    | .error fault => some fault
    | .ok n =>
      if n.atMost elapsed then
        match n.scalar? with
        | .ok limit => some (.timedOut limit)
        | .error fault => some fault
      else none

/-- How a run ends in this state, if it does: with the readings of a program that is finished, with
none if the program was cancelled or there is none, with the fault of a program that failed, or
because the program still runs and the time since `since` has expired. -/
def verdict? (limit : Value α) (since : α) (s : Simulation α) :
    Option (Except (Fault α) (List (Value α))) :=
  match s.job with
  | none | some .cancelled => some (.ok [])
  | some (.finished readings) => some (.ok readings)
  | some (.failed fault) => some (.error fault)
  | some _ => (expired? limit (s.scene.clock.now - since)).map .error

omit [Scalar α] in
/-- Tell how a run ended. The fault of a program is told in full only once. -/
def tell (verdict : Except (Fault α) β) : Action α (Simulation α) β := do
  match (← get).job with
  | some (.failed fault) => modify fun s => { s with job := some (.failed fault.again) }
  | _ => pure ()
  Action.lift verdict

/-- Frames of the same length until the run ends, at most so many. -/
def runFrames (cfg : Settings α) (dt : α) (limit : Value α) (since : α) :
    Nat → Action α (Simulation α) (List (Value α))
  | 0 => do
    match (← get).verdict? limit since with
    | some verdict => tell verdict
    | none => throw .outOfFrames
  | frames + 1 => do
    match (← get).verdict? limit since with
    | some verdict => tell verdict
    | none =>
      frame cfg dt
      runFrames cfg dt limit since frames

/-- Run until the program is at its end, at most for a limited time and for so many frames. -/
def runToEnd (cfg : Settings α) (dt : α) (limit : Value α) (frames : Nat) :
    Action α (Simulation α) (List (Value α)) := do
  runFrames cfg dt limit (← get).scene.clock.now frames

/-- Whether the time is before another one, by more than the slack. -/
def before (finish : α) (s : Simulation α) : Bool := s.scene.clock.now < finish - Clock.slack

/-- Frames of the same length until a time, at most so many. -/
def runTo (cfg : Settings α) (dt finish : α) : Nat → Action α (Simulation α) Unit
  | 0 => do
    if (← get).before finish then throw .outOfFrames
  | frames + 1 => do
    if (← get).before finish then
      frame cfg dt
      runTo cfg dt finish frames

/-- Run for a stretch of time, for at most so many frames. -/
def elapse (cfg : Settings α) (seconds dt : α) (frames : Nat) : Action α (Simulation α) Unit := do
  runTo cfg dt ((← get).scene.clock.now + seconds) frames

end Simulation

end ArmRover
