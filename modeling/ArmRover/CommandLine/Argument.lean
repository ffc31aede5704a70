import ArmRover.Text.Digit

/-!
# Arguments

What a single argument of the command line is: plain text, the separator after which all arguments
are plain, or a switch. A long switch may be shortened as long as it stays unique, and may bring its
value along after `=`; short ones may be joined into one argument, the first with or without a `=`
after it.

* `Switch` — the switches, `Switch.names` — how they are written.
* `Argument`, `Argument.classify` — what an argument is.
* `Argument.classifyAll?` — what all of them are. No argument counts if one can be read in two ways.
-/

namespace ArmRover.CommandLine

/-- The switches. -/
inductive Switch where
  | help
  | robot
  | config
  | world
  | coast
  | realtime
  | verbose
  deriving DecidableEq, Repr

/-- Whether a switch has a value. -/
def Switch.hasValue : Switch → Bool
  | robot | config | world | coast => true
  | help | realtime | verbose => false

/-- The long names. -/
def Switch.names : List (String × Switch) :=
  [("--help", help), ("--robot", robot), ("--config", config), ("--world", world),
   ("--coast", coast), ("--realtime", realtime), ("--verbose", verbose)]

/-- The letters of the short names. None of their switches has a value. -/
def Switch.letter? : Char → Option Switch
  | 'h' => some help
  | 'v' => some verbose
  | _ => none

/-- What an argument is. -/
inductive Argument where
  | plain (text : String)
  | separator
  /-- A long switch, with the value that it brings along. -/
  | long (s : Switch) (value : Option String)
  /-- Short switches. -/
  | short (switches : List Switch)
  | unknown
  /-- Short switches joined with something else. -/
  | malformed
  /-- A switch that is short for several ones. -/
  | ambiguous
  deriving DecidableEq, Repr

namespace Argument

/-- The text before the first `=`, and the text after it, if there is one. -/
def splitValue (cs : List Char) : List Char × Option (List Char) :=
  match cs.dropWhile (· != '=') with
  | [] => (cs, none)
  | _ :: value => (cs.takeWhile (· != '='), some value)

/-- The long switches whose names start with the given text. A full name stands for its switch
alone. -/
def longMatches (name : List Char) : List Switch :=
  match Switch.names.filter fun (n, _) => n.toList == name with
  | [] => (Switch.names.filter fun (n, _) => name.isPrefixOf n.toList).map Prod.snd
  | exact => exact.map Prod.snd

/-- The text without a line feed at its end. -/
def dropLineEnd (cs : List Char) : List Char := if cs.getLast? = some '\n' then cs.dropLast else cs

/-- Whether the text after a minus sign makes it a negative number: digits with an optional point,
and at least one digit at the end. A line feed may follow. -/
def isNumber (cs : List Char) : Bool :=
  let cs := dropLineEnd cs
  match cs.dropWhile Text.isDigit with
  | [] => !cs.isEmpty
  | '.' :: part => !part.isEmpty && part.all Text.isDigit
  | _ => false

/-- What an argument is that starts with two minus signs and has more. -/
def classifyLong (cs : List Char) : Argument :=
  let (name, value) := splitValue cs
  match longMatches name with
  | [s] => long s (value.map String.ofList)
  | [] => if cs.contains ' ' then plain (String.ofList cs) else unknown
  | _ => ambiguous

/-- The switch `s` with the short ones of the given letters after it. -/
def joined (s : Switch) (letters : List Char) : Argument :=
  match letters.mapM Switch.letter? with
  | some others => short (s :: others)
  | none => malformed

/-- What an argument is that starts with one minus sign before the letter `c`. -/
def classifyShort (c : Char) (rest : List Char) : Argument :=
  match Switch.letter? c, rest with
  | some _, ['='] => malformed
  | some s, '=' :: letters => joined s letters
  | some s, letters => joined s letters
  | none, _ =>
    if isNumber (c :: rest) ∨ (c :: rest).contains ' ' then
      plain (String.ofList ('-' :: c :: rest))
    else unknown

/-- What an argument is. -/
def classify (argument : String) : Argument :=
  match argument.toList with
  | ['-', '-'] => separator
  | '-' :: '-' :: rest => classifyLong ('-' :: '-' :: rest)
  | '-' :: c :: rest => classifyShort c rest
  | _ => plain argument

/-- What the arguments are, in order. After the separator all are plain. -/
def classifyAll : List String → List Argument
  | [] => []
  | argument :: rest =>
    match classify argument with
    | separator => separator :: rest.map plain
    | kind => kind :: classifyAll rest

/-- What the arguments are, if each of them is clear. -/
def classifyAll? (arguments : List String) : Option (List Argument) :=
  let kinds := classifyAll arguments
  if kinds.contains ambiguous then none else some kinds

end Argument

end ArmRover.CommandLine
