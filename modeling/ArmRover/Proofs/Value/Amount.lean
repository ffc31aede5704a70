import ArmRover.Proofs.Scalar.Real
import ArmRover.World.Ray

/-!
# Plain data with an amount

Over the real numbers a comparison of plain data that are numbers is the comparison of their
amounts, whatever their kinds are and whichever kind of number asks.

* `Value.exists_product?` — the product of two numbers, `Number.square?_eq_value` — a square.
* `Number.value_lesser`, `Number.value_greater`, `Number.value_clamp` — bounds.
* `Value.measure?_of_isNumber` — a number as a measure.
* `Value.ask?_above`, `Value.ask?_below`, `Value.ask?_atLeast`, `Value.askComputed?_of_isNumber` —
  questions.
* `Sighting.below?_of_isNumber` — whether a distance is below a limit.
-/

namespace ArmRover

namespace Number

theorem atLeast_real (n : Number ℝ) (x : ℝ) : n.atLeast x = decide (x ≤ n.value) := by
  cases n with
  | real y => rfl
  | whole m =>
    apply decide_eq_decide.mpr
    show -⌊-x⌋ ≤ m ↔ x ≤ (m : ℝ)
    rw [neg_le, Int.le_floor, Int.cast_neg, neg_le_neg_iff]

theorem less_real (m n : Number ℝ) : m.less n = decide (m.value < n.value) := by
  cases m with
  | real x => exact n.above_real x
  | whole k =>
    cases n with
    | real y => exact below_real (.whole k) y
    | whole l => exact decide_eq_decide.mpr Int.cast_lt.symm

theorem exists_product? (m n : Number ℝ) :
    ∃ k, m.product? n = .ok k ∧ k.value = m.value * n.value := by
  cases m with
  | real x =>
    refine ⟨.real (x * n.value), ?_, rfl⟩
    show (do return real (x * (← n.scalar?)) : Except (Fault ℝ) (Number ℝ)) = _
    rw [scalar?_eq_value]
    rfl
  | whole k =>
    cases n with
    | real y => exact ⟨.real (Scalar.ofInt k * y), rfl, rfl⟩
    | whole l => exact ⟨.whole (k * l), rfl, Int.cast_mul k l⟩

theorem square?_eq_value (n : Number ℝ) : n.square? = .ok (n.value ^ 2) := by
  cases n with
  | real x =>
    show Except.ok (Real.rpow x (@OfNat.ofNat ℝ 2 (Scalar.instOfNat 2))) = _
    rw [Scalar.ofNat_real]
    exact congrArg _ (Real.rpow_natCast x 2)
  | whole n =>
    show Except.ok ((n * n : Int) : ℝ) = .ok ((n : ℝ) ^ 2)
    rw [Int.cast_mul, pow_two]

theorem isZero_real (n : Number ℝ) : n.isZero = true ↔ n.value = 0 := by
  cases n with
  | real x =>
    show (x == @OfNat.ofNat ℝ 0 (Scalar.instOfNat 0)) = true ↔ x = 0
    rw [Scalar.zero_real, beq_iff_eq]
  | whole k =>
    show (k == 0) = true ↔ (k : ℝ) = 0
    rw [beq_iff_eq, Int.cast_eq_zero]

/-! ### Bounds -/

theorem value_negated (n : Number ℝ) : n.negated.value = -n.value := by
  cases n with
  | real x => rfl
  | whole k => exact Int.cast_neg k

theorem value_lesser (m n : Number ℝ) : (m.lesser n).value = min m.value n.value := by
  unfold lesser
  rw [less_real]
  split
  case isTrue h => exact (min_eq_right (le_of_lt (of_decide_eq_true h))).symm
  case isFalse h => exact (min_eq_left (not_lt.mp fun hlt => h (decide_eq_true hlt))).symm

theorem value_greater (m n : Number ℝ) : (m.greater n).value = max m.value n.value := by
  unfold greater
  rw [less_real]
  split
  case isTrue h => exact (max_eq_right (le_of_lt (of_decide_eq_true h))).symm
  case isFalse h => exact (max_eq_left (not_lt.mp fun hlt => h (decide_eq_true hlt))).symm

theorem value_clamp (n lower upper : Number ℝ) :
    (n.clamp lower upper).value = min (max n.value lower.value) upper.value := by
  unfold clamp
  rw [value_lesser, value_greater]

end Number

namespace Value

variable {v w : Value ℝ}

theorem exists_number? (h : v.IsNumber) : ∃ n, v.number? = .ok n ∧ n.value = v.amount := by
  obtain ⟨n, hn⟩ := h
  exact ⟨n, hn, (amount_of_number hn).symm⟩

theorem exists_product? (hv : v.IsNumber) (hw : w.IsNumber) :
    ∃ u, v.product? w = .ok u ∧ u.IsNumber ∧ u.amount = v.amount * w.amount := by
  obtain ⟨m, hm, hmv⟩ := exists_number? hv
  obtain ⟨n, hn, hnw⟩ := exists_number? hw
  obtain ⟨k, hk, hkvalue⟩ := Number.exists_product? m n
  refine ⟨number k, ?_, ⟨k, rfl⟩, ?_⟩
  · unfold product?
    rw [hm, hn]
    show (Number.product? m n >>= _) = _
    rw [hk]
    rfl
  · rw [amount_of_number (number?_number k), hkvalue, hmv, hnw]

theorem numeric?_of_isNumber (h : v.IsNumber) : v.numeric? = .ok v.amount := by
  unfold numeric?
  split
  case h_1 =>
    obtain ⟨n, hn⟩ := h
    cases hn
  case h_2 => exact scalar?_of_isNumber h

/-! ### Questions -/

theorem ask?_above (h : v.IsNumber) (x : ℝ) :
    v.ask? (·.above x) = .ok (decide (x < v.amount)) := by
  obtain ⟨n, hn, hamount⟩ := exists_number? h
  unfold ask?
  rw [hn, ← hamount, ← Number.above_real]
  rfl

theorem ask?_below (h : v.IsNumber) (x : ℝ) :
    v.ask? (·.below x) = .ok (decide (v.amount < x)) := by
  obtain ⟨n, hn, hamount⟩ := exists_number? h
  unfold ask?
  rw [hn, ← hamount, ← Number.below_real]
  rfl

theorem ask?_atLeast (h : v.IsNumber) (x : ℝ) :
    v.ask? (·.atLeast x) = .ok (decide (x ≤ v.amount)) := by
  obtain ⟨n, hn, hamount⟩ := exists_number? h
  unfold ask?
  rw [hn, ← hamount, ← Number.atLeast_real]
  rfl

/-- A number is no list. -/
theorem not_list_of_isNumber (h : v.IsNumber) (items : List (Value ℝ)) : v ≠ list items := by
  rintro rfl
  obtain ⟨n, hn⟩ := h
  exact absurd hn nofun

theorem askComputed?_of_isNumber (h : v.IsNumber) (question : Number ℝ → Bool) :
    v.askComputed? question = .ok (question (.real v.amount)) := by
  unfold askComputed?
  split
  · exact absurd rfl (not_list_of_isNumber h _)
  · rw [scalar?_of_isNumber h]
    rfl

theorem measure?_of_isNumber (h : v.IsNumber) : v.measure? = .ok ⟨[], [v.amount]⟩ := by
  unfold measure?
  split
  · exact absurd rfl (not_list_of_isNumber h _)
  · rw [scalar?_of_isNumber h]
    rfl

end Value

/-- A distance that is a number is below a limit if its amount is. -/
theorem Sighting.below?_of_isNumber {s : Sighting ℝ} {limit : Value ℝ} (hs : s.value.IsNumber)
    (hlimit : limit.IsNumber) :
    s.below? limit = .ok (decide (s.value.amount < limit.amount)) := by
  cases s with
  | plain v =>
    obtain ⟨m, hm, hmv⟩ := Value.exists_number? (v := v) hs
    obtain ⟨n, hn, hnlimit⟩ := Value.exists_number? hlimit
    show (do return (← v.number?).less (← limit.number?) : Except (Fault ℝ) Bool) =
      .ok (decide (v.amount < limit.amount))
    rw [hm, hn, ← hmv, ← hnlimit, ← Number.less_real]
    rfl
  | hit h =>
    obtain ⟨place, form⟩ := h
    cases form with
    | start => exact Value.ask?_above hlimit place
    | computed =>
      show limit.askComputed? (·.above place) = .ok (decide (place < limit.amount))
      exact Value.askComputed?_of_isNumber hlimit _
    | listed => exact absurd rfl (Value.not_list_of_isNumber hs _)

end ArmRover
