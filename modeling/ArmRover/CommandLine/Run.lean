import ArmRover.CommandLine.Options
import ArmRover.Program.Reader
import ArmRover.Simulation.Report
import ArmRover.Text.Lines
import ArmRover.World.Reader

/-!
# Running a program from the command line

The files that the options name are opened in order: the program, the world, the configuration. The
program then runs to its end in a new simulation, which goes on for a while if that is asked for,
and the answer is a report.

* `Sources` — what the files hold.
* `Result` — exit code and text, `run` — the run.
-/

namespace ArmRover.CommandLine

/-- What the files hold, as far as they can be opened. -/
structure Sources where
  program : String → Option String
  config : String → Option (Value Float)
  world : String → Option (Value Float)

/-- How a run ended. -/
structure Result where
  code : Nat
  output : String

/-- The content of a file. -/
def opened (content : Option β) : Except (Fault Float) β :=
  match content with
  | some b => .ok b
  | none => .error .noSuchFile

/-- The simulation that the options ask for. -/
def simulation (options : Options) (cfg : Settings Float) (world : World Float) :
    Simulation Float :=
  match options.robot with
  | none => .new cfg world
  | some robot => .new { cfg with robot } world

/-- Run a program to its end, go on for a while, and report. Without commands there is nothing to
run. -/
def perform (options : Options) (cfg : Settings Float) (program : String) (frames : Nat) :
    Action Float (Simulation Float) Result := do
  let commands ← Simulation.startText program
  if commands.isEmpty then return ⟨1, ""⟩
  let dt := cfg.run.frameTime
  let readings ← Simulation.runToEnd cfg dt cfg.run.timeLimit frames
  let coast ← Action.lift options.coast.scalar?
  if 0 < coast then Simulation.elapse cfg coast dt frames
  return ⟨0, ← Action.lift ((← get).report? cfg readings)⟩

/-- Run what the options ask for, for at most so many frames at a time. -/
def run (options : Options) (sources : Sources) (frames : Nat) : Except (Fault Float) Result := do
  let text ← opened (sources.program options.program)
  let program := String.ofList (Text.unifyLines text.toList)
  let world ← match options.world with
    | none => pure []
    | some path => World.ofValue? (← opened (sources.world path))
  let config ← match options.config with
    | .null => pure Sections.standard
    | .text path => Sections.load? (← opened (sources.config path))
    | _ => throw .wrongKind
  let cfg ← Settings.ofSections? config
  match (perform options cfg program frames).run (simulation options cfg world) with
  | .ok result _ => return result
  | .error fault _ => throw fault

end ArmRover.CommandLine
