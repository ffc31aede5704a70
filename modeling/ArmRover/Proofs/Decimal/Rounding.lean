import Mathlib.Data.Int.Log
import Mathlib.Data.Rat.Floor
import Mathlib.Tactic.Linarith

/-!
# Rounding to binary floating point

A binary64 number near `q` is a multiple of the worth of its last binary digit, which is 52 places
below the leading digit of `q`, but nowhere below `2 ^ -1074`. Rounding takes the nearest multiple,
and of two that are equally near the even one.

* `Binary64.halfEven` — the nearest whole number, `Binary64.halfEven_eq_iff` — what that means.
* `Binary64.rounded` — the nearest number with 53 binary digits, `Binary64.abs_sub_rounded_le` —
  none of the others is nearer.
* `Binary64.inRange?` — the number, unless it is too large for the format.
-/

namespace ArmRover.Binary64

/-! ### Whole numbers -/

/-- The whole number nearest to `x`, the even one of two that are equally near. -/
def halfEven (x : ℚ) : ℤ :=
  if Int.fract x < 1 / 2 then ⌊x⌋
  else if Int.fract x = 1 / 2 then ⌊x⌋ + ⌊x⌋ % 2
  else ⌊x⌋ + 1

theorem halfEven_near (x : ℚ) :
    |x - halfEven x| < 1 / 2 ∨ |x - halfEven x| = 1 / 2 ∧ Even (halfEven x) := by
  have hsum := Int.floor_add_fract x
  have hlow := Int.fract_nonneg x
  have hhigh := Int.fract_lt_one x
  unfold halfEven
  split_ifs with hless hhalf
  · left
    rw [abs_of_nonneg (by linarith)]
    linarith
  · right
    rcases Int.emod_two_eq_zero_or_one ⌊x⌋ with heven | hodd
    · rw [heven, add_zero, abs_of_nonneg (by linarith)]
      exact ⟨by linarith, Int.even_iff.2 heven⟩
    · rw [hodd, abs_of_nonpos (by push_cast; linarith)]
      exact ⟨by push_cast; linarith, Int.even_iff.2 (by omega)⟩
  · left
    have : 1 / 2 < Int.fract x := lt_of_le_of_ne (not_lt.1 hless) (Ne.symm hhalf)
    rw [abs_lt]
    push_cast
    constructor <;> linarith

/-- Two whole numbers that are both nearest to `x`, and even on a tie, are the same. -/
theorem halfEven_eq_iff {x : ℚ} {n : ℤ} :
    halfEven x = n ↔ |x - n| < 1 / 2 ∨ |x - n| = 1 / 2 ∧ Even n := by
  constructor
  · rintro rfl
    exact halfEven_near x
  · intro hn
    have hm := halfEven_near x
    generalize halfEven x = m at hm
    -- They are at most one apart, and one apart only if both distances are one half.
    have hdist : |(m : ℚ) - n| ≤ |x - m| + |x - n| := by
      rw [abs_sub_comm x m]
      exact abs_sub_le _ _ _
    have hsame (hlt : |(m : ℚ) - n| < 1) : m = n := by
      have : |m - n| < 1 := by exact_mod_cast hlt
      rwa [Int.abs_lt_one_iff, sub_eq_zero] at this
    rcases hm with hm | ⟨hm, hevenm⟩ <;> rcases hn with hn | ⟨hn, hevenn⟩
    · exact hsame (by linarith)
    · exact hsame (by linarith)
    · exact hsame (by linarith)
    · have hle : |m - n| ≤ 1 := by exact_mod_cast (by linarith : |(m : ℚ) - n| ≤ 1)
      rw [abs_le] at hle
      obtain ⟨i, rfl⟩ := hevenm
      obtain ⟨j, rfl⟩ := hevenn
      omega

theorem abs_sub_halfEven_le_half (x : ℚ) : |x - halfEven x| ≤ 1 / 2 := by
  rcases halfEven_near x with h | h
  · exact h.le
  · exact h.1.le

@[simp] theorem halfEven_intCast (n : ℤ) : halfEven n = n := by
  rw [halfEven_eq_iff]
  simp

theorem halfEven_neg (x : ℚ) : halfEven (-x) = -halfEven x := by
  have hflip : -x - ((-halfEven x : ℤ) : ℚ) = -(x - halfEven x) := by
    push_cast
    ring
  rw [halfEven_eq_iff, hflip, abs_neg, even_neg]
  exact halfEven_near x

/-- Rounding does not cross a whole number. -/
theorem le_halfEven {n : ℤ} {x : ℚ} (h : (n : ℚ) ≤ x) : n ≤ halfEven x := by
  by_contra hlt
  have hstep : (halfEven x : ℚ) + 1 ≤ n := by exact_mod_cast not_le.1 hlt
  have := (abs_le.1 (abs_sub_halfEven_le_half x)).2
  linarith

theorem halfEven_le {n : ℤ} {x : ℚ} (h : x ≤ n) : halfEven x ≤ n := by
  have hflip : ((-n : ℤ) : ℚ) ≤ -x := by
    push_cast
    linarith
  have := le_halfEven hflip
  rw [halfEven_neg] at this
  omega

/-- No whole number is nearer. -/
theorem abs_sub_halfEven_le (x : ℚ) (n : ℤ) : |x - halfEven x| ≤ |x - n| := by
  by_cases heq : halfEven x = n
  · rw [heq]
  · have hapart : (1 : ℚ) ≤ |(halfEven x : ℚ) - n| := by
      exact_mod_cast Int.one_le_abs (sub_ne_zero.2 heq)
    have hdist : |(halfEven x : ℚ) - n| ≤ |x - halfEven x| + |x - n| := by
      rw [abs_sub_comm x (halfEven x)]
      exact abs_sub_le _ _ _
    have := abs_sub_halfEven_le_half x
    linarith

/-! ### Numbers with 53 binary digits -/

/-- The exponent of the last binary digit of a binary64 number near `q`. -/
def lastPlace (q : ℚ) : ℤ := max (Int.log 2 |q| - 52) (-1074)

/-- The binary64 number nearest to `q`, the even one of two that are equally near, for a format
without a largest number. -/
def rounded (q : ℚ) : ℚ := halfEven (q / 2 ^ lastPlace q) * 2 ^ lastPlace q

@[simp] theorem rounded_zero : rounded 0 = 0 := by
  have hzero : halfEven 0 = 0 := by exact_mod_cast halfEven_intCast 0
  rw [rounded, zero_div, hzero, Int.cast_zero, zero_mul]

theorem rounded_neg (q : ℚ) : rounded (-q) = -rounded q := by
  have hplace : lastPlace (-q) = lastPlace q := by rw [lastPlace, lastPlace, abs_neg]
  rw [rounded, rounded, hplace, neg_div, halfEven_neg]
  push_cast
  ring

theorem two_zpow_pos (e : ℤ) : (0 : ℚ) < 2 ^ e := zpow_pos two_pos e

theorem neg_le_lastPlace (q : ℚ) : -1074 ≤ lastPlace q := le_max_right _ _

/-- The leading binary digit is 52 places above the last one, except near zero. -/
theorem pow_le_of_lastPlace {q : ℚ} (hq : q ≠ 0) (h : lastPlace q ≠ -1074) :
    (2 : ℚ) ^ (lastPlace q + 52) ≤ |q| := by
  have hplace : lastPlace q = Int.log 2 |q| - 52 := by
    rcases max_choice (Int.log 2 |q| - 52) (-1074) with h' | h'
    · exact h'
    · exact absurd h' h
  rw [hplace, sub_add_cancel]
  exact_mod_cast Int.zpow_log_le_self one_lt_two (abs_pos.2 hq)

/-- There are at most 53 binary digits. -/
theorem lt_pow_lastPlace (q : ℚ) : |q| < (2 : ℚ) ^ (lastPlace q + 53) := by
  have hlog : |q| < (2 : ℚ) ^ (Int.log 2 |q| + 1) := by
    exact_mod_cast Int.lt_zpow_succ_log_self one_lt_two |q|
  refine hlog.trans_le (zpow_le_zpow_right₀ one_le_two ?_)
  have : Int.log 2 |q| - 52 ≤ lastPlace q := le_max_left _ _
  omega

/-- Numbers near zero share their last place. -/
theorem lastPlace_eq_of_lt {q : ℚ} (hq : q ≠ 0) (h : |q| < 2 ^ (-1022 : ℤ)) :
    lastPlace q = -1074 := by
  by_contra hne
  have hlow := pow_le_of_lastPlace hq hne
  have : (2 : ℚ) ^ (-1022 : ℤ) ≤ 2 ^ (lastPlace q + 52) :=
    zpow_le_zpow_right₀ one_le_two (by have := neg_le_lastPlace q; omega)
  linarith

/-- The last place of a number whose leading binary digit is known. -/
theorem lastPlace_eq {q : ℚ} {k : ℤ} (hlow : (2 : ℚ) ^ k ≤ q) (hhigh : q < 2 ^ (k + 1)) :
    lastPlace q = max (k - 52) (-1074) := by
  have hq : 0 < q := (two_zpow_pos k).trans_le hlow
  have hle : k ≤ Int.log 2 q :=
    (Int.zpow_le_iff_le_log one_lt_two hq).1 (by exact_mod_cast hlow)
  have hlt : Int.log 2 q < k + 1 :=
    (Int.lt_zpow_iff_log_lt one_lt_two hq).1 (by exact_mod_cast hhigh)
  rw [lastPlace, abs_of_pos hq, show Int.log 2 q = k by omega]

/-- None of the numbers with 53 binary digits is nearer than the rounded one. -/
theorem abs_sub_rounded_le (q : ℚ) {m e : ℤ} (hm : |m| < 2 ^ 53) (he : -1074 ≤ e) :
    |q - rounded q| ≤ |q - m * 2 ^ e| := by
  set u := lastPlace q with hu
  have hunit := two_zpow_pos u
  -- Seen in units of the last place, the multiples of the unit are the whole numbers.
  have hwhole (n : ℤ) : |q - rounded q| ≤ |q - n * 2 ^ u| := by
    have hscale (k : ℤ) : |q - k * 2 ^ u| = |q / 2 ^ u - k| * 2 ^ u := by
      rw [← abs_of_pos hunit, ← abs_mul, abs_of_pos hunit, sub_mul,
        div_mul_cancel₀ _ hunit.ne']
    rw [rounded, ← hu, hscale, hscale]
    exact mul_le_mul_of_nonneg_right (abs_sub_halfEven_le _ n) hunit.le
  rcases le_or_gt u e with hcoarse | hfine
  · have hmultiple : (m : ℚ) * 2 ^ e = ((m * 2 ^ (e - u).toNat : ℤ) : ℚ) * 2 ^ u := by
      have hsplit : e = ((e - u).toNat : ℤ) + u := by omega
      conv_lhs => rw [hsplit, zpow_add₀ two_ne_zero, zpow_natCast]
      push_cast
      ring
    rw [hmultiple]
    exact hwhole _
  · -- A finer number is no farther from zero than the power of two below `q`, a multiple.
    rcases eq_or_ne q 0 with rfl | hq
    · rw [rounded_zero, sub_self, abs_zero]
      exact abs_nonneg _
    have hpower := pow_le_of_lastPlace hq (by omega)
    rw [← hu] at hpower
    have hsmall : |(m : ℚ) * 2 ^ e| ≤ 2 ^ (u + 52) := by
      rw [abs_mul, abs_of_pos (two_zpow_pos e)]
      calc |(m : ℚ)| * 2 ^ e ≤ 2 ^ (53 : ℤ) * 2 ^ e := by
            refine mul_le_mul_of_nonneg_right ?_ (two_zpow_pos e).le
            exact_mod_cast hm.le
        _ = 2 ^ (53 + e) := (zpow_add₀ two_ne_zero _ _).symm
        _ ≤ 2 ^ (u + 52) := zpow_le_zpow_right₀ one_le_two (by omega)
    have hedge : (2 : ℚ) ^ (u + 52) = ((2 ^ 52 : ℤ) : ℚ) * 2 ^ u := by
      rw [add_comm, zpow_add₀ two_ne_zero]
      norm_num
    rw [abs_le] at hsmall
    rcases le_or_gt 0 q with hpos | hneg
    · rw [abs_of_nonneg hpos] at hpower
      refine (hwhole (2 ^ 52)).trans ?_
      rw [← hedge, abs_of_nonneg (by linarith), abs_of_nonneg (by linarith)]
      linarith
    · rw [abs_of_neg hneg] at hpower
      refine (hwhole (-2 ^ 52)).trans ?_
      rw [Int.cast_neg, neg_mul, ← hedge, abs_of_nonpos (by linarith), abs_of_nonpos (by linarith)]
      linarith

/-- A number with 53 binary digits is rounded to itself. -/
theorem rounded_eq_self {m e : ℤ} (hm : |m| < 2 ^ 53) (he : -1074 ≤ e) :
    rounded (m * 2 ^ e) = m * 2 ^ e := by
  have h := abs_sub_rounded_le (m * 2 ^ e) hm he
  rw [sub_self, abs_zero, abs_nonpos_iff, sub_eq_zero] at h
  exact h.symm

/-- Numbers of less than half the smallest one are rounded to zero. -/
theorem rounded_eq_zero {q : ℚ} (h : |q| < 2 ^ (-1075 : ℤ)) : rounded q = 0 := by
  rcases eq_or_ne q 0 with rfl | hq
  · exact rounded_zero
  have hplace : lastPlace q = -1074 :=
    lastPlace_eq_of_lt hq (h.trans (zpow_lt_zpow_right₀ one_lt_two (by omega)))
  have hscaled : halfEven (q / 2 ^ (-1074 : ℤ)) = 0 := by
    rw [halfEven_eq_iff, Int.cast_zero, sub_zero, abs_div, abs_of_pos (two_zpow_pos _)]
    left
    rw [div_lt_iff₀ (two_zpow_pos _)]
    calc |q| < 2 ^ (-1075 : ℤ) := h
      _ = 1 / 2 * 2 ^ (-1074 : ℤ) := by rw [one_div, ← zpow_neg_one, ← zpow_add₀ two_ne_zero]; rfl
  rw [rounded, hplace, hscaled, Int.cast_zero, zero_mul]

/-! ### Numbers in range -/

/-- The number if it is below the first power of two that the format cannot reach. -/
def inRange? (v : ℚ) : Option ℚ := if |v| < 2 ^ (1024 : ℤ) then some v else none

@[simp] theorem inRange?_zero : inRange? 0 = some 0 := by
  rw [inRange?, abs_zero, if_pos (two_zpow_pos _)]

theorem inRange?_neg (v : ℚ) : inRange? (-v) = (inRange? v).map (- ·) := by
  rw [inRange?, inRange?, abs_neg]
  split <;> rfl

theorem inRange?_eq_some {v w : ℚ} : inRange? v = some w ↔ v = w ∧ |w| < 2 ^ (1024 : ℤ) := by
  rw [inRange?]
  split_ifs with h
  · rw [Option.some.injEq]
    exact ⟨by rintro rfl; exact ⟨rfl, h⟩, And.left⟩
  · refine ⟨False.elim, ?_⟩
    rintro ⟨rfl, h'⟩
    exact absurd h' h

theorem inRange?_of_lt {v : ℚ} {k : ℤ} (h : |v| < 2 ^ k) (hk : k ≤ 1024) :
    inRange? v = some v := by
  rw [inRange?, if_pos]
  exact h.trans_le (zpow_le_zpow_right₀ one_le_two hk)

theorem inRange?_of_le {v : ℚ} {k : ℤ} (h : 2 ^ k ≤ |v|) (hk : 1024 ≤ k) : inRange? v = none := by
  rw [inRange?, if_neg]
  exact not_lt.2 ((zpow_le_zpow_right₀ one_le_two hk).trans h)

/-- Numbers too large for the format stay so when they are rounded. -/
theorem inRange?_rounded_eq_none {q : ℚ} (h : 2 ^ (1024 : ℤ) ≤ q) :
    inRange? (rounded q) = none := by
  have hq : 0 < q := (two_zpow_pos 1024).trans_le h
  have hlog : 1024 ≤ Int.log 2 q :=
    (Int.zpow_le_iff_le_log one_lt_two hq).1 (by rwa [Nat.cast_ofNat])
  have hplace : 972 ≤ lastPlace q := by
    rw [lastPlace, abs_of_pos hq]
    omega
  have hpower := pow_le_of_lastPlace hq.ne' (by omega)
  rw [abs_of_pos hq, zpow_add₀ two_ne_zero] at hpower
  have hscaled : ((2 ^ 52 : ℤ) : ℚ) ≤ q / 2 ^ lastPlace q := by
    rw [le_div_iff₀ (two_zpow_pos _), mul_comm]
    exact_mod_cast hpower
  have hdigits : (2 : ℚ) ^ (52 : ℤ) ≤ halfEven (q / 2 ^ lastPlace q) := by
    exact_mod_cast le_halfEven hscaled
  have hrounded : (2 : ℚ) ^ (52 + lastPlace q) ≤ rounded q := by
    rw [zpow_add₀ two_ne_zero]
    exact mul_le_mul_of_nonneg_right hdigits (two_zpow_pos _).le
  exact inRange?_of_le (hrounded.trans (le_abs_self _)) (by omega)

end ArmRover.Binary64
