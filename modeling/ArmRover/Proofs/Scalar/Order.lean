import ArmRover.Proofs.Scalar.Real
import ArmRover.Scalar.Binary64
import Mathlib.Data.Prod.Lex
import Mathlib.Order.Compare

/-!
# Scalars in order

What the comparisons of scalars have in common, whether the scalars are exact or rounded: among
numbers that are not missing, any two can be compared, and equal ones may still differ, as zeros of
different signs do.

* `Scalar.Ordered` — scalars with such comparisons, `Scalar.Ordered.lt_of_le_of_lt` and others —
  what follows.
* Real numbers and floating-point numbers are ordered, the latter by `Scalar.place?`.
-/

namespace ArmRover.Scalar

/-- Scalars of which those that are not missing can be compared. -/
class Ordered (α : Type) [Scalar α] : Prop where
  not_nan_of_le {x y : α} : x ≤ y → isNaN x = false ∧ isNaN y = false
  le_refl {x : α} : isNaN x = false → x ≤ x
  le_trans {x y z : α} : x ≤ y → y ≤ z → x ≤ z
  lt_iff_not_le {x y : α} : isNaN x = false → isNaN y = false → (x < y ↔ ¬ y ≤ x)
  le_of_lt {x y : α} : x < y → x ≤ y

namespace Ordered

variable {α : Type} [Scalar α] [Ordered α] {x y z : α}

theorem le_of_not_lt (hx : isNaN x = false) (hy : isNaN y = false) (h : ¬ x < y) : y ≤ x := by
  by_contra hyx
  exact h ((lt_iff_not_le hx hy).mpr hyx)

theorem lt_of_le_of_lt (hxy : x ≤ y) (hyz : y < z) : x < z := by
  have hx := (not_nan_of_le hxy).1
  obtain ⟨hy, hz⟩ := not_nan_of_le (le_of_lt hyz)
  refine (lt_iff_not_le hx hz).mpr fun hzx => ?_
  exact (lt_iff_not_le hy hz).mp hyz (le_trans hzx hxy)

end Ordered

/-! ### Real numbers -/

instance : Ordered ℝ where
  not_nan_of_le _ := ⟨rfl, rfl⟩
  le_refl _ := le_refl _
  le_trans := le_trans
  lt_iff_not_le _ _ := not_le.symm
  le_of_lt := le_of_lt

/-! ### Floating-point numbers -/

open Float.Model (UnpackedFloat)

/-- The place of a floating-point number in the order: first those that are infinite or have a
sign, then by exponent and mantissa. A missing number has no place. -/
def place? : UnpackedFloat → Option (Int ×ₗ Int ×ₗ Int)
  | .notANumber => none
  | .infinity .negative => some (toLex (-2, toLex (0, 0)))
  | .finite .negative m e _ => some (toLex (-1, toLex (-e, -m)))
  | .zero _ => some (toLex (0, toLex (0, 0)))
  | .finite .positive m e _ => some (toLex (1, toLex (e, m)))
  | .infinity .positive => some (toLex (2, toLex (0, 0)))

theorem isNaN_eq_isNone_place? (a : UnpackedFloat) : a.isNaN = (place? a).isNone := by
  cases a with
  | notANumber => rfl
  | zero s => rfl
  | infinity s => cases s <;> rfl
  | finite s m e h => cases s <;> rfl

theorem compare_toLex {β : Type} [LinearOrder β] (a b : Int) (x y : β) :
    compare (toLex (a, x)) (toLex (b, y)) = (compare a b).then (compare x y) := by
  rcases lt_trichotomy a b with h | rfl | h
  · rw [compare_lt_iff_lt.mpr h, compare_lt_iff_lt.mpr (Prod.Lex.toLex_lt_toLex.mpr (.inl h))]
    rfl
  · rw [compare_eq_iff_eq.mpr (rfl : a = a), Ordering.eq_then]
    have hmono : StrictMono fun z : β => toLex (a, z) :=
      fun _ _ h => Prod.Lex.toLex_lt_toLex.mpr (.inr ⟨rfl, h⟩)
    rw [← cmp_eq_compare, ← cmp_eq_compare]
    exact hmono.cmp_map_eq x y
  · rw [compare_gt_iff_gt.mpr h, compare_gt_iff_gt.mpr (Prod.Lex.toLex_lt_toLex.mpr (.inl h))]
    rfl

theorem compare_neg (a b : Int) : compare (-a) (-b) = (compare a b).swap := by
  rw [← cmp_eq_compare, ← cmp_eq_compare, cmp_swap]
  exact StrictAnti.cmp_map_eq (fun _ _ h => neg_lt_neg h) a b

theorem compare_natCast (m n : Nat) : compare (m : Int) n = compare m n := by
  rw [← cmp_eq_compare, ← cmp_eq_compare]
  exact Nat.strictMono_cast.cmp_map_eq m n

/-- Floating-point numbers compare as their places do. -/
theorem compare_of_place? {a b : UnpackedFloat} {x y : Int ×ₗ Int ×ₗ Int}
    (ha : place? a = some x) (hb : place? b = some y) : a.compare b = some (compare x y) := by
  rcases a with s | _ | s | ⟨s, m, e, h⟩ <;> rcases b with s' | _ | s' | ⟨s', m', e', h'⟩ <;>
    (try cases s) <;> (try cases s') <;> (try cases ha) <;> (try cases hb)
  all_goals
    dsimp only [UnpackedFloat.compare]
    simp only [compare_toLex, compare_neg, compare_natCast, ← Ordering.swap_then]
    rfl

/-- A missing number compares with nothing. -/
theorem compare_eq_none {a b : UnpackedFloat} (h : place? a = none ∨ place? b = none) :
    a.compare b = none := by
  have hmissing : ∀ {c : UnpackedFloat}, place? c = none → c = .notANumber := by
    intro c hc
    rcases c with s | _ | s | ⟨s, m, e, h⟩ <;> (try cases s) <;> first | rfl | cases hc
  rcases h with h | h
  · rw [hmissing h]
    rfl
  · rw [hmissing h]
    cases a <;> rfl

/-- The place of a floating-point number. -/
def placeOf? (x : Float) : Option (Int ×ₗ Int ×ₗ Int) := place? x.toModel.unpack

theorem isNaN_iff_placeOf? {x : Float} : isNaN x = false ↔ ∃ p, placeOf? x = some p := by
  show x.toModel.unpack.isNaN = false ↔ _
  rw [isNaN_eq_isNone_place?, Option.isNone_eq_false_iff, Option.isSome_iff_exists]
  rfl

theorem le_iff_placeOf? {x y : Float} :
    x ≤ y ↔ ∃ p, placeOf? x = some p ∧ ∃ q, placeOf? y = some q ∧ p ≤ q := by
  show decide (x.toModel ≤ y.toModel) = true ↔ _
  rw [decide_eq_true_iff]
  show (x.toModel.unpack.compare y.toModel.unpack).any (·.isLE) = true ↔ _
  unfold placeOf?
  cases hx : place? x.toModel.unpack with
  | none => simp [compare_eq_none (.inl hx)]
  | some p =>
    cases hy : place? y.toModel.unpack with
    | none => simp [compare_eq_none (.inr hy)]
    | some q =>
      simp only [compare_of_place? hx hy, Option.any_some, Ordering.isLE_iff_ne_gt,
        Option.some.injEq, exists_eq_left']
      exact compare_le_iff_le

theorem lt_iff_placeOf? {x y : Float} :
    x < y ↔ ∃ p, placeOf? x = some p ∧ ∃ q, placeOf? y = some q ∧ p < q := by
  show decide (x.toModel < y.toModel) = true ↔ _
  rw [decide_eq_true_iff]
  show (x.toModel.unpack.compare y.toModel.unpack == some .lt) = true ↔ _
  unfold placeOf?
  cases hx : place? x.toModel.unpack with
  | none => simp [compare_eq_none (.inl hx)]
  | some p =>
    cases hy : place? y.toModel.unpack with
    | none => simp [compare_eq_none (.inr hy)]
    | some q =>
      simp only [compare_of_place? hx hy, Option.some_beq_some, beq_iff_eq, Option.some.injEq,
        exists_eq_left']
      exact compare_lt_iff_lt

instance : Ordered Float where
  not_nan_of_le h := by
    obtain ⟨p, hp, q, hq, -⟩ := le_iff_placeOf?.mp h
    exact ⟨isNaN_iff_placeOf?.mpr ⟨p, hp⟩, isNaN_iff_placeOf?.mpr ⟨q, hq⟩⟩
  le_refl h := by
    obtain ⟨p, hp⟩ := isNaN_iff_placeOf?.mp h
    exact le_iff_placeOf?.mpr ⟨p, hp, p, hp, le_rfl⟩
  le_trans hxy hyz := by
    obtain ⟨p, hp, q, hq, hpq⟩ := le_iff_placeOf?.mp hxy
    obtain ⟨q', hq', r, hr, hqr⟩ := le_iff_placeOf?.mp hyz
    obtain rfl := Option.some.inj (hq.symm.trans hq')
    exact le_iff_placeOf?.mpr ⟨p, hp, r, hr, hpq.trans hqr⟩
  lt_iff_not_le hx hy := by
    obtain ⟨p, hp⟩ := isNaN_iff_placeOf?.mp hx
    obtain ⟨q, hq⟩ := isNaN_iff_placeOf?.mp hy
    refine lt_iff_placeOf?.trans (Iff.trans ?_ (not_congr le_iff_placeOf?).symm)
    simp [hp, hq]
  le_of_lt h := by
    obtain ⟨p, hp, q, hq, hpq⟩ := lt_iff_placeOf?.mp h
    exact le_iff_placeOf?.mpr ⟨p, hp, q, hq, hpq.le⟩

end ArmRover.Scalar
