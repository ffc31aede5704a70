import ArmRover.Command
import ArmRover.CommandLine.Argument
import ArmRover.Scalar.Binary64
import ArmRover.Value.Number

/-!
# Options

What the arguments of the command line ask for.

* `Options` — the request.
* `Options.ofArguments?` — the request of a list of arguments, or that they are wrong.

A switch to which the separator is given as its value has an empty list instead, which stands for no
robot and no world, and is of no use as a configuration or a time.
-/

namespace ArmRover.CommandLine

/-- What the command line asks for. -/
structure Options where
  /-- The program file; `-` stands for the standard input. -/
  program : String
  robot : Option Robot
  /-- The file that is put over the standard configuration, or null. -/
  config : Value Float
  /-- The file with the obstacles. -/
  world : Option String
  /-- How many seconds to go on after the end of the program. -/
  coast : Value Float
  /-- Whether frames should take real time. No answer depends on it. -/
  realtime : Bool
  /-- Whether to tell more while running. No answer depends on it. -/
  verbose : Bool

/-- The path of the configuration file, if there is one. -/
def Options.configPath (options : Options) : Option String :=
  match options.config with
  | .text path => some path
  | _ => none

/-- Why there are no options. -/
inductive Usage where
  /-- The arguments ask how to use the command. -/
  | help
  | wrong
  deriving DecidableEq, Repr

/-- The arguments so far. -/
structure Draft where
  program : Option String := none
  robot : Option Robot := none
  config : Value Float := .null
  world : Option String := none
  coast : Value Float := .real 0
  realtime : Bool := false
  verbose : Bool := false
  /-- Whether there was an argument that nothing asks for. -/
  stray : Bool := false

namespace Draft

/-- The value of a switch as plain data: its text, but an empty list for the separator. -/
def valueOf (text : String) : Value Float := if text = "--" then .list [] else .text text

/-- Set the value of a switch. -/
def setValue (d : Draft) (s : Switch) (value : String) : Except Usage Draft :=
  match s, valueOf value with
  | .robot, .text name =>
    match Robot.named? name with
    | some robot => .ok { d with robot := some robot }
    | none => .error .wrong
  | .coast, .text time =>
    match Value.numeric? (.text time : Value Float) with
    | .ok coast => .ok { d with coast := .real coast }
    | .error _ => .error .wrong
  | .world, .text path => .ok { d with world := if path.isEmpty then none else some path }
  | .robot, _ => .ok { d with robot := none }
  | .world, _ => .ok { d with world := none }
  | .coast, v => .ok { d with coast := v }
  | .config, v => .ok { d with config := v }
  | .help, _ | .realtime, _ | .verbose, _ => .error .wrong

/-- Turn a switch on that has no value. -/
def turnOn (d : Draft) : Switch → Except Usage Draft
  | .help => .error .help
  | .realtime => .ok { d with realtime := true }
  | .verbose => .ok { d with verbose := true }
  | .robot | .config | .world | .coast => .error .wrong

/-- Turn on switches, in order. -/
def turnAllOn (switches : List Switch) (d : Draft) : Except Usage Draft :=
  switches.foldlM turnOn d

/-- Put in a plain argument: the first one is the program. -/
def place (d : Draft) (text : String) : Draft :=
  if d.program.isNone then { d with program := some text } else { d with stray := true }

/-- Take the arguments in order. A separator belongs to the plain argument right before or after
it. -/
def take : List Argument → Draft → Except Usage Draft
  | [], d => return d
  | .separator :: .plain text :: rest, d => take rest (d.place text)
  | .plain text :: .separator :: rest, d => take rest (d.place text)
  | .plain text :: rest, d => take rest (d.place text)
  | .separator :: rest, d => take rest { d with stray := true }
  | .unknown :: rest, d => take rest { d with stray := true }
  | .malformed :: _, _ | .ambiguous :: _, _ => throw .wrong
  | .short switches :: rest, d => do take rest (← turnAllOn switches d)
  | .long s (some value) :: rest, d => do take rest (← d.setValue s value)
  | .long s none :: .plain value :: rest, d => do
    if s.hasValue then take rest (← d.setValue s value)
    else take (.plain value :: rest) (← d.turnOn s)
  | .long s none :: rest, d => do take rest (← d.turnOn s)

/-- The options, if the arguments make sense together. -/
def finish (d : Draft) : Except Usage Options :=
  match d.program with
  | some program =>
    if d.stray then .error .wrong
    else .ok
      { program, robot := d.robot, config := d.config, world := d.world, coast := d.coast,
        realtime := d.realtime, verbose := d.verbose }
  | none => .error .wrong

end Draft

/-- The options that a list of arguments asks for. -/
def Options.ofArguments? (arguments : List String) : Except Usage Options := do
  match Argument.classifyAll? arguments with
  | none => throw .wrong
  | some kinds => (← Draft.take kinds {}).finish

end ArmRover.CommandLine
