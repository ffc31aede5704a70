import ArmRover.Program.Call

/-!
# The grammar of calls

How the calls other than `setLight` can be written, with all the freedom that blanks give. Nothing
here says how a call is found: a text is a way to write a call, or it is none.

* `Blanks`, `Literal.WellFormed`, `Literal.written` — blanks, and numbers.
* `Listed` — arguments with commas between them, `Call.Written` — a call.
* `Stands` — a call at a place of a text.
* `Call.Kind.numeric` — the kinds, `Call.meaning` — the command that a call stands for.
-/

namespace ArmRover.Program

/-- A run of blanks, possibly empty. -/
def Blanks (cs : List Char) : Prop := ∀ c ∈ cs, Text.isBlank c = true

/-- A run of digits, not empty. -/
def Digits (cs : List Char) : Prop := cs ≠ [] ∧ ∀ c ∈ cs, Text.isDigit c = true

/-! ### Numbers -/

namespace Literal

/-- The parts of a number are digits, before a point and, if there is one, after it. -/
def WellFormed (l : Literal) : Prop := Digits l.whole ∧ (l.fraction = [] ∨ Digits l.fraction)

/-- The number has a whole part only. -/
def Whole (l : Literal) : Prop := Digits l.whole ∧ l.fraction = []

/-- The characters of a number: `-?digits(.digits)?`. -/
def written (l : Literal) : List Char :=
  (if l.negative then ['-'] else []) ++ l.whole ++
    (if l.fraction = [] then [] else '.' :: l.fraction)

/-- The whole number that the digits before the point write, of any size. -/
def integer (l : Literal) : Int :=
  if l.negative then -(Text.natOfDigits l.whole 0 : Int) else Text.natOfDigits l.whole 0

theorem Whole.wellFormed {l : Literal} (h : l.Whole) : l.WellFormed := ⟨h.1, .inl h.2⟩

end Literal

/-! ### Calls -/

/-- The arguments in order, with commas between them, and blanks around each. -/
inductive Listed : List Literal → List Char → Prop
  | none {gap} : Blanks gap → Listed [] gap
  | last {left right l} : Blanks left → Blanks right → Listed [l] (left ++ l.written ++ right)
  | more {left right l m ls body} : Blanks left → Blanks right → Listed (m :: ls) body →
      Listed (l :: m :: ls) (left ++ l.written ++ right ++ ',' :: body)

namespace Call

/-- The kinds of calls that take only numbers, in the order in which they are collected. -/
def Kind.numeric : List Kind :=
  [.moveJoint, .closeGripper, .openGripper, .moveToPose, .move, .getDistance]

/-- The numbers in the parentheses. -/
def literals : Call → List Literal
  | moveJoint joint angle => [joint, angle]
  | closeGripper effort => effort.toList
  | openGripper | getDistance | setLight _ => []
  | moveToPose x y z => [x, y, z]
  | move vx wz => [vx, wz]

/-- A call of the kinds that take only numbers, all of them well-formed. The number of a joint is
whole. -/
def WellFormed : Call → Prop
  | moveJoint joint angle => joint.Whole ∧ angle.WellFormed
  | setLight _ => False
  | call => ∀ l ∈ call.literals, l.WellFormed

/-- The text is a way to write the call: its name, and its arguments in parentheses. -/
def Written (call : Call) (text : List Char) : Prop :=
  call.WellFormed ∧ ∃ gap body, Blanks gap ∧ Listed call.literals body ∧
    text = call.kind.name ++ gap ++ '(' :: body ++ [')']

/-- The command that a call stands for. Only a joint other than the five has none. -/
def meaning {α : Type} [Scalar α] : Call → Option (Command α)
  | moveJoint joint angle =>
    if 0 ≤ joint.integer ∧ joint.integer ≤ 4 then some (.moveJoint joint.integer angle.value)
    else none
  | closeGripper effort => some (.closeGripper (effort.map Literal.value))
  | openGripper => some .openGripper
  | moveToPose x y z => some (.moveToPose ⟨x.value, y.value, z.value⟩)
  | move vx wz => some (.move vx.value wz.value)
  | getDistance => some .getDistance
  | setLight word => some (.setLight (String.ofList (lightColor word)))

end Call

/-- Whether the command is for the light. -/
def lights {α : Type} : Command α → Bool
  | .setLight _ => true
  | _ => false

/-- A call stands at a place of a text: the text goes on there with a way to write the call. -/
def Stands (text : List Char) (place : Nat) (call : Call) : Prop :=
  ∃ body, call.Written body ∧ body <+: text.drop place

end ArmRover.Program
