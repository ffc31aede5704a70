import ArmRover.Command
import ArmRover.CommandLine.Argument

/-!
# Help

What the command tells about its own use: the usage in short, set in lines of a limited length, and
one entry for each argument.

* `usage` — the usage in short, `help` — all of it.

Both need the name of the command. The switches stand in the order of `Switch.names`.
-/

namespace ArmRover.CommandLine

/-- The names of the robots, as a choice. -/
def robotChoice : String := "\x7b" ++ ",".intercalate [Robot.arm.name, Robot.rover.name] ++ "\x7d"

/-- A switch with its value, in the usage. -/
def Switch.brief : Switch → String
  | help => "[-h]"
  | robot => s!"[--robot {robotChoice}]"
  | config => "[--config CONFIG]"
  | world => "[--world WORLD]"
  | coast => "[--coast COAST]"
  | realtime => "[--realtime]"
  | verbose => "[-v]"

/-- A switch with its value, and what it is for. -/
def Switch.entry : Switch → String × String
  | help => ("-h, --help", "show this help message and exit")
  | robot => (s!"--robot {robotChoice}", "active robot")
  | config => ("--config CONFIG", "YAML file overriding config.yaml")
  | world => ("--world WORLD", "YAML world file with an obstacles list")
  | coast => ("--coast COAST", "seconds to keep simulating after the program ends")
  | realtime => ("--realtime", "pace the simulation in real time")
  | verbose => ("-v, --verbose", "debug logging")

/-- All switches. -/
def Switch.all : List Switch := Switch.names.map Prod.snd

/-! ### Setting lines -/

/-- The longest line. -/
def lineLength : Nat := 78

/-- So many spaces. -/
def spaces (n : Nat) : String := String.ofList (List.replicate n ' ')

/-- Add a word to lines in reverse, each of which has so much room: to the last line if it fits
there, and otherwise as a new one. -/
def addWord (room : Nat) (lines : List String) (word : String) : List String :=
  match lines with
  | [] => [word]
  | line :: rest =>
    let longer := line ++ " " ++ word
    if longer.length ≤ room then longer :: rest else word :: line :: rest

/-- Words set in lines with so much room. A word that does not fit has a line of its own. -/
def setWords (room : Nat) (words : List String) : List String :=
  (words.foldl (addWord room) []).reverse

/-! ### The texts -/

/-- The usage of a command with a name, by lines. All lines but the first start below the first
switch. -/
def usageLines (command : String) : List String :=
  let start := s!"usage: {command} "
  match setWords (lineLength - start.length) (Switch.all.map Switch.brief) ++ ["program"] with
  | first :: others => (start ++ first) :: others.map (spaces start.length ++ ·)
  | [] => []

/-- Entries in two columns. -/
def columns (width : Nat) (entries : List (String × String)) : List String :=
  entries.map fun (name, purpose) => "  " ++ name ++ spaces (width - name.length) ++ purpose

/-- The entry of the program file. -/
def programEntry : String × String := ("program", "program file ('-' reads stdin)")

/-- The width of the first column: that of the longest entry, and two more. -/
def columnWidth : Nat :=
  ((Switch.all.map fun s => s.entry.1.length).foldl max programEntry.1.length) + 2

/-- The usage of a command with a name. -/
def usage (command : String) : String := "\n".intercalate (usageLines command) ++ "\n"

/-- How to use a command with a name. -/
def help (command : String) : String :=
  let about := ["", "Run a robot program in the sandbox simulator", ""]
  let plain := "positional arguments:" :: columns columnWidth [programEntry]
  let switches := ["", "options:"] ++ columns columnWidth (Switch.all.map Switch.entry)
  usage command ++ "\n".intercalate (about ++ plain ++ switches) ++ "\n"

end ArmRover.CommandLine
