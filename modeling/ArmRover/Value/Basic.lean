import ArmRover.Scalar.Basic

/-!
# Plain data

Settings and worlds arrive as plain data: numbers, text, lists and mappings. A number keeps its
kind, whole or not, because messages write `10` and `10.0` differently and because a count has to
be whole.

* `Number` — a number with its kind.
* `Value` — plain data.
* `Fields` — mappings as lists of pairs, in the order in which the keys were first put.
-/

namespace ArmRover

/-- A number that is either written as a whole one or not. -/
inductive Number (α : Type) where
  | whole (n : Int)
  | real (x : α)
  deriving Repr

namespace Number

/-- The number as a scalar. -/
def value [Scalar α] : Number α → α
  | whole n => Scalar.ofInt n
  | real x => x

end Number

/-- A mapping from names, as pairs in the order in which the names were first put. -/
abbrev Fields (β : Type) := List (String × β)

namespace Fields

/-- The entry of a name. -/
def get? (key : String) : Fields β → Option β
  | [] => none
  | (k, v) :: rest => if k = key then some v else get? key rest

/-- Replace the entry of a name where it stands, or add it at the end. -/
def put (key : String) (value : β) : Fields β → Fields β
  | [] => [(key, value)]
  | (k, v) :: rest => if k = key then (k, value) :: rest else (k, v) :: put key value rest

/-- Put every entry of `new` into `base`, in order. -/
def merge (base new : Fields β) : Fields β :=
  new.foldl (fun fields (key, value) => fields.put key value) base

@[simp] theorem get?_put_self (key : String) (value : β) (fields : Fields β) :
    (fields.put key value).get? key = some value := by
  induction fields with
  | nil => simp [put, get?]
  | cons entry rest ih =>
    obtain ⟨k, v⟩ := entry
    by_cases h : k = key <;> simp [put, get?, h, ih]

@[simp] theorem get?_put_of_ne {key other : String} (h : key ≠ other) (value : β)
    (fields : Fields β) : (fields.put key value).get? other = fields.get? other := by
  induction fields with
  | nil => simp [put, get?, h]
  | cons entry rest ih =>
    obtain ⟨k, v⟩ := entry
    by_cases hk : k = key
    · subst hk; simp [put, get?, h]
    · simp [put, get?, hk, ih]

end Fields

/-- Plain data over numbers of type `α`. -/
inductive Value (α : Type) where
  | null
  | bool (b : Bool)
  | number (n : Number α)
  | text (s : String)
  | list (items : List (Value α))
  | map (fields : List (String × Value α))

namespace Value

/-- Whether the value counts as something: not null, false, zero, or empty. -/
def isSomething [Scalar α] : Value α → Bool
  | null => false
  | bool b => b
  | number (.whole n) => n != 0
  | number (.real x) => !(x == 0)
  | text s => !s.isEmpty
  | list items => !items.isEmpty
  | map fields => !fields.isEmpty

/-- A number that is not written as a whole one. -/
def real (x : α) : Value α := number (.real x)

end Value

end ArmRover
