import ArmRover.Value.Number

/-!
# Measures

What a sensor or a search sets its own numbers against is plain data: a number, or a list of
numbers, nested to 64 levels as long as it is even. To compute with a list is to compute with each
item. A question about a list has an answer only if the list holds a single number.

* `Measure` — the numbers of a measure and their arrangement, `Value.measure?` — those of a value.
* `Measure.only?` — the single number, `Measure.agrees` — whether two measures go together.
* `Value.ask?`, `Value.askComputed?` — a question about a value, put by a given or by a computed
  number.
-/

namespace ArmRover

-- Whole powers are the core library's, whatever algebra is imported.
attribute [local instance (high)] instPowNat

/-- The numbers of a measure, and the lengths of the lists around them, from the outermost. A number
alone has no list around it. -/
structure Measure (α : Type) where
  lengths : List Nat
  items : List α
  deriving DecidableEq, Repr

namespace Value

/-! ### Lists -/

mutual

/-- The lengths of the lists around the items, from the outermost, if the value is even. -/
def lengths? : Value α → Option (List Nat)
  | list items => lengthsOf? items
  | _ => some []

/-- The lengths of a list and of the lists in it, if they agree. -/
def lengthsOf? : List (Value α) → Option (List Nat)
  | [] => some [0]
  | v :: rest =>
    match lengths? v, lengthsOf? rest with
    | some inner, some (n :: others) =>
      if n = 0 ∨ inner = others then some ((n + 1) :: inner) else none
    | _, _ => none

end

mutual

/-- What stands in the lists, in order. A value that is no list stands alone. -/
def leaves : Value α → List (Value α)
  | list items => leavesOf items
  | v => [v]

/-- What stands in the values of a list, in order. -/
def leavesOf : List (Value α) → List (Value α)
  | [] => []
  | v :: rest => leaves v ++ leavesOf rest

end

/-- How deep lists can be nested. -/
def maxDepth : Nat := 64

/-- The lengths of the lists around the items, from the outermost, if the value is even and not
nested too deep. -/
def arrangement? (v : Value α) : Option (List Nat) :=
  v.lengths?.filter fun lengths => lengths.length ≤ maxDepth

variable [Scalar α]

/-- The value as a measure: a number that fits the type of scalars, or an even list of such. -/
def measure? : Value α → Except (Fault α) (Measure α)
  | list items => do
    match (list items).arrangement? with
    | none => throw .notSingle
    | some lengths => return ⟨lengths, ← (list items).leaves.mapM scalar?⟩
  | v => return ⟨[], [← v.scalar?]⟩

@[simp] theorem measure?_real (x : α) : (real x).measure? = .ok ⟨[], [x]⟩ := rfl

end Value

namespace Measure

/-- Whether the numbers stand in a list. -/
def listed (m : Measure α) : Bool := !m.lengths.isEmpty

/-- The single number of a measure. -/
def only? (m : Measure α) : Except (Fault α) α :=
  match m.items with
  | [x] => .ok x
  | _ => .error .notSingle

/-- Whether the arrangements of two measures go together: from the innermost, two lengths are equal
or one of them is 1. -/
def agrees (m n : Measure α) : Bool :=
  (m.lengths.reverse.zip n.lengths.reverse).all fun (i, j) => i = j || i = 1 || j = 1

@[simp] theorem only?_single (lengths : List Nat) (x : α) :
    (⟨lengths, [x]⟩ : Measure α).only? = .ok x := rfl

end Measure

/-! ### Questions -/

variable [Scalar α]

omit [Scalar α] in
/-- Whether the number can be kept as a scalar among others: a whole one has at most 64 binary
digits. -/
def Number.fitsItem : Number α → Bool
  | whole n => -2 ^ (63 : Nat) ≤ n && n < 2 ^ (64 : Nat)
  | real _ => true

/-- The number as an item of a list is kept: as a scalar, if it fits. -/
def Number.asItem (n : Number α) : Number α := if n.fitsItem then real n.value else n

namespace Value

/-- A question about a value that a given number puts: it takes numbers as they are. -/
def ask? (question : Number α → Bool) (v : Value α) : Except (Fault α) Bool :=
  return question (← v.number?)

/-- A question about a value that a computed number puts: it takes numbers as scalars, and even
lists that hold a single number. -/
def askComputed? (question : Number α → Bool) : Value α → Except (Fault α) Bool
  | list items => do
    match (list items).arrangement? with
    | none => throw .notSingle
    | some _ =>
      match ← (list items).leaves.mapM number? with
      | [n] => return question n.asItem
      | _ => throw .notSingle
  | v => return question (.real (← v.scalar?))

omit [Scalar α] in
@[simp] theorem ask?_number (question : Number α → Bool) (n : Number α) :
    (number n).ask? question = .ok (question n) := rfl

@[simp] theorem askComputed?_real (question : Number α → Bool) (x : α) :
    (real x).askComputed? question = .ok (question (.real x)) := rfl

end Value

end ArmRover
