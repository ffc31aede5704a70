import ArmRover.Fault
import ArmRover.Text.Numeral

/-!
# Plain data as numbers

Settings and the measures of obstacles are plain data until they are computed with. Arithmetic
needs a number that fits the type of scalars; a comparison needs a number and takes a whole one of
any size as it is. The truth values count as 0 and 1.

* `Number.scalar?`, `Number.product?`, `Number.square?`, `Number.quotient?`, `Number.whole?` —
  arithmetic.
* `Number.below`, `Number.above`, `Number.atMost`, `Number.atLeast` — comparisons with a scalar,
  `Number.less` — with another number.
* `Number.lesser`, `Number.greater`, `Number.clamp` — bounds that keep their kind.
* `Value.number?`, `Value.scalar?`, `Value.product?` — the same for plain data, `Value.numeric?` —
  also for text that writes a number.
-/

namespace ArmRover

-- Whole powers are the core library's, whatever algebra is imported.
attribute [local instance (high)] instPowNat

variable [Scalar α]

namespace Number

/-! ### Arithmetic -/

/-- The number as a scalar, unless it is too large for one. -/
def scalar? : Number α → Except (Fault α) α
  | real x => .ok x
  | whole n => Scalar.finite? (Scalar.ofInt n)

/-- The product of two numbers. Whole numbers have a whole product, of any size. -/
def product? : Number α → Number α → Except (Fault α) (Number α)
  | whole m, whole n => .ok (whole (m * n))
  | a, b => return real ((← a.scalar?) * (← b.scalar?))

/-- The square of a number as a scalar. That of a whole number is rounded once. -/
def square? : Number α → Except (Fault α) α
  | whole n => (whole (n * n)).scalar?
  | real x => Scalar.square? x

/-- The quotient by a positive whole number. That of a whole number is rounded once. -/
def quotient : Number α → Nat → α
  | whole m, n => Scalar.ofRatio m n
  | real x, n => x / Scalar.ofInt n

/-- The quotient by a positive whole number, unless that of a whole number is too large. -/
def quotient? : Number α → Nat → Except (Fault α) α
  | whole m, n => Scalar.finite? (quotient (whole m) n)
  | real x, n => .ok (quotient (real x) n)

omit [Scalar α] in
/-- The whole number, where one has to stand. -/
def whole? : Number α → Except (Fault α) Int
  | whole n => .ok n
  | real _ => .error .wrongKind

/-! ### Comparisons -/

/-- Whether the number is less than `x`. -/
def below (n : Number α) (x : α) : Bool :=
  match n with
  | real y => y < x
  | whole k =>
    if Scalar.isNaN x then false
    else if Scalar.isInfinite x then 0 < x
    else k < Scalar.ceil x

/-- Whether the number is greater than `x`. -/
def above (n : Number α) (x : α) : Bool :=
  match n with
  | real y => x < y
  | whole k =>
    if Scalar.isNaN x then false
    else if Scalar.isInfinite x then x < 0
    else Scalar.floor x < k

/-- Whether the number is at most `x`. -/
def atMost (n : Number α) (x : α) : Bool :=
  match n with
  | real y => y ≤ x
  | whole k =>
    if Scalar.isNaN x then false
    else if Scalar.isInfinite x then 0 < x
    else k ≤ Scalar.floor x

/-- Whether the number is at least `x`. -/
def atLeast (n : Number α) (x : α) : Bool :=
  match n with
  | real y => x ≤ y
  | whole k =>
    if Scalar.isNaN x then false
    else if Scalar.isInfinite x then x < 0
    else Scalar.ceil x ≤ k

/-- Whether one number is less than another. -/
def less (a b : Number α) : Bool :=
  match a, b with
  | whole m, whole n => m < n
  | whole m, real y => (whole m).below y
  | real x, n => n.above x

/-- Whether the number is zero. -/
def isZero : Number α → Bool
  | real x => x == 0
  | whole n => n == 0

/-! ### Bounds -/

/-- The opposite number. -/
def negated : Number α → Number α
  | real x => real (-x)
  | whole n => whole (-n)

/-- The smaller of two numbers, the first unless the second is less. -/
def lesser (a b : Number α) : Number α := if b.less a then b else a

/-- The larger of two numbers, the first unless the second is greater. -/
def greater (a b : Number α) : Number α := if a.less b then b else a

/-- The number brought up to `lower`, then down to `upper`. -/
def clamp (a lower upper : Number α) : Number α := (a.greater lower).lesser upper

@[simp] theorem lesser_real (x y : α) : (real x).lesser (real y) = real (Scalar.lesser x y) := by
  simp only [lesser, less, above, Scalar.lesser, decide_eq_true_eq]
  split <;> rfl

@[simp] theorem greater_real (x y : α) :
    (real x).greater (real y) = real (Scalar.greater x y) := by
  simp only [greater, less, above, Scalar.greater, decide_eq_true_eq]
  split <;> rfl

@[simp] theorem clamp_real (x lower upper : α) :
    (real x).clamp (real lower) (real upper) = real (Scalar.clamp x lower upper) := by
  simp [clamp, Scalar.clamp]

end Number

namespace Value

omit [Scalar α] in
/-- The number in the value. -/
def number? : Value α → Except (Fault α) (Number α)
  | number n => .ok n
  | bool b => .ok (.whole (if b then 1 else 0))
  | _ => .error .wrongKind

/-- The number in the value as a scalar. -/
def scalar? (v : Value α) : Except (Fault α) α := do (← v.number?).scalar?

/-- Whether something can be repeated so many times: the count has to fit 64 binary digits with a
sign. -/
def countable (n : Int) : Bool := -2 ^ (63 : Nat) ≤ n && n < 2 ^ (63 : Nat)

/-- The largest number of items that can be held at once. -/
def maxHeld : Nat := 2 ^ (30 : Nat)

/-- The number of copies of `size` items that `n` asks for: none for a number below zero. It makes
no difference how often nothing is repeated. -/
def copies? (n : Int) (size : Nat) : Except (Fault α) Nat :=
  if !countable n then .error .tooLarge
  else if maxHeld < n.toNat * size then .error .outOfMemory
  else .ok (if size = 0 then 0 else n.toNat)

/-- What repeating text or a list gives. Repeated text is of no use to anybody. -/
def repeated? (n : Int) : Value α → Except (Fault α) (Value α)
  | list items => do
    let copies ← copies? n items.length
    return list (List.replicate copies items).flatten
  | text s => do
    let _ ← copies? n s.length
    throw .wrongKind
  | _ => .error .wrongKind

/-- The product of two values. A whole number repeats text and lists. -/
def product? (v w : Value α) : Except (Fault α) (Value α) :=
  match v.number?, w.number? with
  | .ok a, .ok b => return number (← a.product? b)
  | .ok (.whole n), .error _ => w.repeated? n
  | .error _, .ok (.whole n) => v.repeated? n
  | _, _ => .error .wrongKind

/-- The number in the value, or the one that its text writes, as a scalar. -/
def numeric? : Value α → Except (Fault α) α
  | text s =>
    match Text.Numeral.readSpaced? s.toList with
    | some numeral => .ok numeral.value
    | none => .error .notNumeric
  | v => v.scalar?

omit [Scalar α] in
@[simp] theorem number?_number (n : Number α) : (number n).number? = .ok n := rfl

@[simp] theorem scalar?_real (x : α) : (real x).scalar? = .ok x := rfl

@[simp] theorem product?_real (x y : α) : (real x).product? (real y) = .ok (real (x * y)) := rfl

@[simp] theorem numeric?_real (x : α) : (real x).numeric? = .ok x := rfl

end Value

end ArmRover
