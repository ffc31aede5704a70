import ArmRover.Command
import ArmRover.Fault
import ArmRover.Text.Blank
import ArmRover.Text.Digit
import ArmRover.Program.Light

/-!
# Calls

The calls that a program text can hold, one kind for each command, and their recognition at one
place of the text. Blanks may stand around the parentheses and the commas.

* `Literal` — a number argument: a sign, digits, and digits after a point.
* `Call` — a call with its arguments as written, `Call.Kind` — its kind.
* `Call.Kind.recognise` — the call of a kind at the start of a text, and the rest of the text.
* `Call.command?` — the command that a call gives.
-/

namespace ArmRover.Program

/-! ### Numbers -/

/-- A number as an argument: `-?digits(.digits)?`, in the digits of any script. -/
structure Literal where
  negative : Bool
  whole : List Char
  fraction : List Char
  deriving DecidableEq, Repr

namespace Literal

/-- The number written. -/
def value [Scalar α] (l : Literal) : α :=
  let x := Scalar.ofDecimal (Text.natOfDigits (l.whole ++ l.fraction) 0) l.fraction.length
  if l.negative then -x else x

/-- The whole number written. Whole numbers are read up to 4300 digits. -/
def whole? (l : Literal) : Except (Fault α) Int :=
  if 4300 < l.whole.length then .error .tooManyDigits
  else
    let n : Int := Text.natOfDigits l.whole 0
    .ok (if l.negative then -n else n)

end Literal

/-! ### Tokens -/

/-- The text after a word at its start. -/
def afterWord? : List Char → List Char → Option (List Char)
  | [], cs => some cs
  | w :: word, c :: cs => if w = c then afterWord? word cs else none
  | _ :: _, [] => none

/-- The text after blanks and a given character. -/
def afterMark? (mark : Char) (cs : List Char) : Option (List Char) :=
  match Text.dropBlanks cs with
  | c :: rest => if c = mark then some rest else none
  | [] => none

/-- The optional minus sign of a number. -/
def minus : List Char → Bool × List Char
  | '-' :: rest => (true, rest)
  | cs => (false, cs)

/-- The digits after a point, if the text starts with a point and at least one digit. -/
def decimals : List Char → List Char × List Char
  | '.' :: rest =>
    let ds := rest.takeWhile Text.isDigit
    if ds.isEmpty then ([], '.' :: rest) else (ds, rest.dropWhile Text.isDigit)
  | cs => ([], cs)

/-- A whole number after blanks. -/
def integer? (cs : List Char) : Option (Literal × List Char) :=
  let (negative, cs) := minus (Text.dropBlanks cs)
  let ds := cs.takeWhile Text.isDigit
  if ds.isEmpty then none else some (⟨negative, ds, []⟩, cs.dropWhile Text.isDigit)

/-- A number after blanks. -/
def number? (cs : List Char) : Option (Literal × List Char) :=
  (integer? cs).map fun (l, rest) =>
    let part := decimals rest
    ({ l with fraction := part.1 }, part.2)

/-- A word argument: characters other than quotes, commas and closing parentheses, in a pair of
equal quotes or bare. A bare word ends at the parenthesis; blanks alone make an empty one. -/
def word? (cs : List Char) : Option (List Char × List Char) :=
  let inWord (c : Char) : Bool := c != '"' && c != '\'' && c != ',' && c != ')'
  let blanks := cs.takeWhile Text.isBlank
  match cs.dropWhile Text.isBlank with
  | [] => none
  | c :: rest =>
    if c = '"' ∨ c = '\'' then
      let word := rest.takeWhile inWord
      match rest.dropWhile inWord with
      | q :: rest => if q = c ∧ word ≠ [] then some (word, rest) else none
      | [] => none
    else
      let word := (c :: rest).takeWhile inWord
      if word.isEmpty && blanks.isEmpty then none
      else some (word, (c :: rest).dropWhile inWord)

/-! ### Calls -/

/-- The kinds of calls, in the order in which they are collected. -/
inductive Call.Kind where
  | moveJoint
  | closeGripper
  | openGripper
  | moveToPose
  | move
  | getDistance
  | setLight
  deriving DecidableEq, Repr

/-- A call with its arguments as written. -/
inductive Call where
  | moveJoint (joint angle : Literal)
  | closeGripper (effort : Option Literal)
  | openGripper
  | moveToPose (x y z : Literal)
  | move (vx wz : Literal)
  | getDistance
  | setLight (word : List Char)
  deriving DecidableEq, Repr

namespace Call

/-- The kind of a call. -/
def kind : Call → Kind
  | moveJoint .. => .moveJoint
  | closeGripper _ => .closeGripper
  | openGripper => .openGripper
  | moveToPose .. => .moveToPose
  | move .. => .move
  | getDistance => .getDistance
  | setLight _ => .setLight

namespace Kind

/-- The kinds in the order in which they are collected. -/
def all : List Kind :=
  [.moveJoint, .closeGripper, .openGripper, .moveToPose, .move, .getDistance, .setLight]

/-- The name by which a program calls a kind. -/
def name : Kind → List Char
  | moveJoint => "robot.moveJoint".toList
  | closeGripper => "robot.closeGripper".toList
  | openGripper => "robot.openGripper".toList
  | moveToPose => "robot.moveToPose".toList
  | move => "robot.move".toList
  | getDistance => "robot.getDistance".toList
  | setLight => "robot.setLight".toList

/-- The arguments of a kind, after the opening parenthesis. -/
def arguments? (cs : List Char) : Kind → Option (Call × List Char)
  | moveJoint => do
    let (joint, rest) ← integer? cs
    let rest ← afterMark? ',' rest
    let (angle, rest) ← number? rest
    return (.moveJoint joint angle, rest)
  | closeGripper =>
    match number? cs with
    | some (effort, rest) => some (.closeGripper effort, rest)
    | none => some (.closeGripper none, cs)
  | openGripper => some (.openGripper, cs)
  | moveToPose => do
    let (x, rest) ← number? cs
    let rest ← afterMark? ',' rest
    let (y, rest) ← number? rest
    let rest ← afterMark? ',' rest
    let (z, rest) ← number? rest
    return (.moveToPose x y z, rest)
  | move => do
    let (vx, rest) ← number? cs
    let rest ← afterMark? ',' rest
    let (wz, rest) ← number? rest
    return (.move vx wz, rest)
  | getDistance => some (.getDistance, cs)
  | setLight => do
    let (word, rest) ← word? cs
    return (.setLight word, rest)

/-- The call of a kind at the start of a text, and the text after it. -/
def recognise (k : Kind) (cs : List Char) : Option (Call × List Char) := do
  let rest ← afterWord? k.name cs
  let rest ← afterMark? '(' rest
  let (call, rest) ← k.arguments? rest
  let rest ← afterMark? ')' rest
  return (call, rest)

end Kind

/-- The command that a call gives. A joint other than the five gives none, and a joint number of
too many digits cannot be read. -/
def command? [Scalar α] : Call → Except (Fault α) (Option (Command α))
  | moveJoint joint angle => do
    let j ← joint.whole?
    return if 0 ≤ j ∧ j < 5 then some (.moveJoint j angle.value) else none
  | closeGripper effort => .ok (some (.closeGripper (effort.map Literal.value)))
  | openGripper => .ok (some .openGripper)
  | moveToPose x y z => .ok (some (.moveToPose ⟨x.value, y.value, z.value⟩))
  | move vx wz => .ok (some (.move vx.value wz.value))
  | getDistance => .ok (some .getDistance)
  | setLight word => .ok (some (.setLight (String.ofList (lightColor word))))

/-! ### The rest of the text is shorter -/

theorem length_afterWord? {word cs rest : List Char} (h : afterWord? word cs = some rest) :
    word.length + rest.length = cs.length := by
  fun_induction afterWord? word cs with
  | case1 cs => simp_all
  | case2 w word cs ih =>
    have := ih h
    simp only [List.length_cons]
    omega
  | case3 => simp at h
  | case4 => simp at h

theorem length_dropBlanks_le (cs : List Char) : (Text.dropBlanks cs).length ≤ cs.length :=
  (List.dropWhile_sublist _).length_le

theorem length_lt_of_afterMark? {mark : Char} {cs rest : List Char}
    (h : afterMark? mark cs = some rest) : rest.length < cs.length := by
  have := length_dropBlanks_le cs
  unfold afterMark? at h
  split at h
  · next c r hd =>
    split at h
    · cases h
      rw [hd] at this
      simp only [List.length_cons] at this
      omega
    · simp at h
  · simp at h

theorem length_minus_le (cs : List Char) : (minus cs).2.length ≤ cs.length := by
  unfold minus
  split <;> simp

theorem length_decimals_le (cs : List Char) : (decimals cs).2.length ≤ cs.length := by
  unfold decimals
  split
  · next rest =>
    have := (List.dropWhile_sublist (l := rest) Text.isDigit).length_le
    dsimp only
    split
    · simp
    · simp only [List.length_cons]
      omega
  · simp

theorem length_lt_of_integer? {cs rest : List Char} {l : Literal}
    (h : integer? cs = some (l, rest)) : rest.length < cs.length := by
  have h1 := length_dropBlanks_le cs
  have h2 := length_minus_le (Text.dropBlanks cs)
  unfold integer? at h
  dsimp only at h
  split at h
  · simp at h
  · next hd =>
    cases h
    have h3 := congrArg List.length
      (List.takeWhile_append_dropWhile (p := Text.isDigit) (l := (minus (Text.dropBlanks cs)).2))
    rw [List.length_append] at h3
    have h4 : 0 < ((minus (Text.dropBlanks cs)).2.takeWhile Text.isDigit).length := by
      cases hl : (minus (Text.dropBlanks cs)).2.takeWhile Text.isDigit with
      | nil => simp [hl] at hd
      | cons => simp
    omega

theorem length_lt_of_number? {cs rest : List Char} {l : Literal}
    (h : number? cs = some (l, rest)) : rest.length < cs.length := by
  unfold number? at h
  obtain ⟨⟨l', r⟩, hr, he⟩ := Option.map_eq_some_iff.1 h
  have h1 := length_lt_of_integer? hr
  have h2 := length_decimals_le r
  simp only [Prod.mk.injEq] at he
  rw [← he.2]
  omega

theorem length_le_of_word? {cs rest word : List Char} (h : word? cs = some (word, rest)) :
    rest.length ≤ cs.length := by
  have h1 := (List.dropWhile_sublist (l := cs) Text.isBlank).length_le
  unfold word? at h
  dsimp only at h
  split at h
  · simp at h
  next c r hc =>
  rw [hc] at h1
  split at h
  · split at h
    · next q r' hq =>
      split at h
      · cases h
        have h2 := (List.dropWhile_sublist (l := r)
          (fun c => c != '"' && c != '\'' && c != ',' && c != ')')).length_le
        rw [hq] at h2
        simp only [List.length_cons] at h1 h2
        omega
      · simp at h
    · simp at h
  · split at h
    · simp at h
    · cases h
      have h2 := (List.dropWhile_sublist (l := c :: r)
        (fun c => c != '"' && c != '\'' && c != ',' && c != ')')).length_le
      omega

theorem length_le_of_arguments? {k : Kind} {cs rest : List Char} {call : Call}
    (h : k.arguments? cs = some (call, rest)) : rest.length ≤ cs.length := by
  cases k <;> simp only [Kind.arguments?, bind, Option.bind_eq_some_iff, pure] at h
  case moveJoint =>
    obtain ⟨⟨_, r1⟩, h1, r2, h2, ⟨_, r3⟩, h3, h4⟩ := h
    cases h4
    have := length_lt_of_integer? h1
    have := length_lt_of_afterMark? h2
    have := length_lt_of_number? h3
    dsimp only at *
    omega
  case closeGripper =>
    split at h
    · next h1 =>
      cases h
      exact Nat.le_of_lt (length_lt_of_number? h1)
    · cases h
      exact Nat.le_refl _
  case openGripper =>
    cases h
    exact Nat.le_refl _
  case moveToPose =>
    obtain ⟨⟨_, r1⟩, h1, r2, h2, ⟨_, r3⟩, h3, r4, h4, ⟨_, r5⟩, h5, h6⟩ := h
    cases h6
    have := length_lt_of_number? h1
    have := length_lt_of_afterMark? h2
    have := length_lt_of_number? h3
    have := length_lt_of_afterMark? h4
    have := length_lt_of_number? h5
    dsimp only at *
    omega
  case move =>
    obtain ⟨⟨_, r1⟩, h1, r2, h2, ⟨_, r3⟩, h3, h4⟩ := h
    cases h4
    have := length_lt_of_number? h1
    have := length_lt_of_afterMark? h2
    have := length_lt_of_number? h3
    dsimp only at *
    omega
  case getDistance =>
    cases h
    exact Nat.le_refl _
  case setLight =>
    obtain ⟨⟨_, r⟩, h1, h2⟩ := h
    cases h2
    exact length_le_of_word? h1

/-- A call takes up at least one character. -/
theorem length_lt_of_recognise {k : Kind} {cs rest : List Char} {call : Call}
    (h : k.recognise cs = some (call, rest)) : rest.length < cs.length := by
  simp only [Kind.recognise, bind, Option.bind_eq_some_iff, pure] at h
  obtain ⟨r1, h1, r2, h2, ⟨_, r3⟩, h3, r4, h4, h5⟩ := h
  cases h5
  have := length_afterWord? h1
  have := length_lt_of_afterMark? h2
  have := length_le_of_arguments? h3
  have := length_lt_of_afterMark? h4
  dsimp only at *
  omega

end Call

end ArmRover.Program
