import ArmRover.Program.Call
import ArmRover.Program.Comment

/-!
# Programs

The commands of a program text: its well-formed calls outside comments, and nothing else. By
default they are collected kind by kind, or, on request, in the order of the text.

* `Found` — a call with the place where it stands.
* `scan` — all calls of one kind, `found` — those of all kinds.
* `commands?` — the commands of a text, `Reader` — a reader that remembers the last ones.
-/

namespace ArmRover.Program

/-- A call, and the half-open span of the characters that it takes up. -/
structure Found where
  start : Nat
  stop : Nat
  call : Call
  deriving DecidableEq, Repr

/-- The calls of a kind in a text that starts at the given place, from left to right. The search
goes on after the end of each call. -/
def scan (k : Call.Kind) (start : Nat) (cs : List Char) : List Found :=
  match cs with
  | [] => []
  | c :: rest =>
    match _recognised : k.recognise (c :: rest) with
    | some (call, after) =>
      let stop := start + ((c :: rest).length - after.length)
      ⟨start, stop, call⟩ :: scan k stop after
    | none => scan k (start + 1) rest
termination_by cs.length
decreasing_by
  · exact Call.length_lt_of_recognise _recognised
  · simp

/-- The calls of a text that holds no comments, kind by kind. -/
def found (cs : List Char) : List Found := Call.Kind.all.flatMap fun k => scan k 0 cs

/-- A command with the call that gives it, for those calls that give one. -/
def emitted? [Scalar α] : List Found → Except (Fault α) (List (Found × Command α))
  | [] => .ok []
  | f :: rest => do
    let command ← f.call.command?
    let others ← emitted? rest
    return match command with
      | some command => (f, command) :: others
      | none => others

/-- Put the commands into the order in which their calls start. -/
def inTextOrder (commands : List (Found × Command α)) : List (Found × Command α) :=
  commands.mergeSort fun a b => a.1.start ≤ b.1.start

/-- The commands of a program text. -/
def commands? [Scalar α] (textOrder : Bool) (text : List Char) :
    Except (Fault α) (List (Command α)) := do
  let emitted ← emitted? (found (withoutComments text))
  return (if textOrder then inTextOrder emitted else emitted).map Prod.snd

/-- A reader of programs. It keeps the commands of the last text that it could read. -/
structure Reader (α : Type) where
  textOrder : Bool := false
  commands : List (Command α) := []

/-- Read another text. The commands stay as they are when it cannot be read. -/
def Reader.read [Scalar α] (text : String) : Action α (Reader α) (List (Command α)) := do
  let reader ← get
  let commands ← Action.lift (commands? reader.textOrder text.toList)
  set { reader with commands }
  return commands

end ArmRover.Program
