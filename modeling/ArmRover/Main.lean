import ArmRover.CommandLine.Help
import ArmRover.CommandLine.Run
import ArmRover.Fault.Message
import ArmRover.Value.Reader

/-!
# The command

`main` reads the arguments and the files, runs the program, and prints the report. Configurations
and worlds are files of plain data in the notation of `Value.read?`.
-/

namespace ArmRover.CommandLine

/-- The name of the command. -/
def commandName : String := "armrover"

/-- The most frames of one run. -/
def frameLimit : Nat := 1000000000

/-- The text of a file, if it can be read. -/
def readText (path : String) : IO (Option String) := do
  try
    return some (← IO.FS.readFile path)
  catch _ => return none

/-- The text of the program file, or of the standard input. -/
def readProgram (path : String) : IO (Option String) := do
  if path = "-" then
    return some (← (← IO.getStdin).readToEnd)
  else readText path

/-- The value in a file of plain data, if there is a file. -/
def readValue (path : Option String) : IO (Option (Value Float)) := do
  match path with
  | none => return none
  | some path =>
    match ← readText path with
    | none => return none
    | some text =>
      match Value.read? text with
      | some v => return some v
      | none => throw (IO.userError s!"cannot read {path}")

/-- Run what the options ask for and print the report. -/
def report (options : Options) : IO UInt32 := do
  let program ← readProgram options.program
  let world ← readValue options.world
  let config ← readValue options.configPath
  let sources : Sources := ⟨fun _ => program, fun _ => config, fun _ => world⟩
  match run options sources frameLimit with
  | .ok result =>
    IO.print result.output
    return result.code.toUInt32
  | .error fault =>
    IO.eprintln (fault.message.getD "the simulation failed")
    return 1

/-- Do what the arguments ask for. The answer is the exit code. -/
def respond (arguments : List String) : IO UInt32 := do
  match Options.ofArguments? arguments with
  | .ok options => report options
  | .error .help =>
    IO.print (help commandName)
    return 0
  | .error .wrong =>
    IO.eprint (usage commandName)
    return 2

end ArmRover.CommandLine

/-- Run a robot program. -/
def main (arguments : List String) : IO UInt32 := ArmRover.CommandLine.respond arguments
