import ArmRover.Proofs.Decimal.Rounding
import Mathlib

/-!
# Arithmetic on unpacked numbers

The logic of the machine's floating point computes on a mantissa and an exponent, and remembers of
the digits that it drops one bit, and whether there was anything below. That is enough to round
what was computed exactly.

* `Binary64.Holds` — what a mantissa with its two bits knows of a number, kept by
  `Binary64.Holds.shiftRight` and enough for `Binary64.Holds.roundedMantissa`.
* `Binary64.amount?` — the number that is unpacked, `Binary64.Canonical` — its digits are where
  the format has them.
* `Binary64.IsRounded` — a number is the rounding of another, `Binary64.isRounded_roundWithAccuracy`
  and the operations that end with it.
-/

namespace ArmRover.Binary64

open Float.Model Float.Model.UnpackedFloat

/-! ### Dropped digits -/

/-- The number `x` is the mantissa, a half if the first bit is set, and a rest below a half, which
is zero unless the second bit is set. -/
def Holds (em : ExtendedMantissa) (x : ℚ) : Prop :=
  ∃ rest : ℚ, x = em.mantissa + (if em.roundBit then 1 / 2 else 0) + rest ∧
    if em.stickyBit then 0 < rest ∧ rest < 1 / 2 else rest = 0

theorem holds_exact (m : ℕ) : Holds (.ofMantissaAndAccuracy m .exact) m :=
  ⟨0, by simp [ExtendedMantissa.ofMantissaAndAccuracy], by
    simp [ExtendedMantissa.ofMantissaAndAccuracy]⟩

/-- The accuracy of a quotient of whole numbers is read off the remainder. -/
theorem holds_div (a : ℕ) {b : ℕ} (hb : 0 < b) :
    Holds (.ofMantissaAndAccuracy (a / b) (accuracyOfFraction (a % b) b)) (a / b) := by
  have hb' : (0 : ℚ) < b := by exact_mod_cast hb
  have hsplit : (a : ℚ) / b = (a / b : ℕ) + (a % b : ℕ) / b := by
    rw [div_eq_iff hb'.ne', add_mul, div_mul_cancel₀ _ hb'.ne']
    exact_mod_cast (Nat.div_add_mod' a b).symm
  have hlt : ((a % b : ℕ) : ℚ) / b < 1 := by
    rw [div_lt_one hb']
    exact_mod_cast Nat.mod_lt a hb
  rw [hsplit]
  generalize a / b = m at *
  generalize a % b = r at *
  unfold accuracyOfFraction
  split_ifs with hr
  · refine ⟨0, ?_, rfl⟩
    simp [ExtendedMantissa.ofMantissaAndAccuracy, hr]
  have hpos : (0 : ℚ) < r / b := div_pos (by exact_mod_cast Nat.pos_of_ne_zero hr) hb'
  rcases hcmp : compare (2 * r) b with _ | _ | _
  · rw [Nat.compare_eq_lt] at hcmp
    refine ⟨r / b, by simp [ExtendedMantissa.ofMantissaAndAccuracy], hpos, ?_⟩
    rw [div_lt_iff₀ hb']
    have : (2 : ℚ) * r < b := by exact_mod_cast hcmp
    linarith
  · rw [Nat.compare_eq_eq] at hcmp
    refine ⟨0, ?_, rfl⟩
    have : (r : ℚ) / b = 1 / 2 := by
      rw [div_eq_iff hb'.ne', ← hcmp]
      push_cast
      ring
    simp [ExtendedMantissa.ofMantissaAndAccuracy, this]
  · rw [Nat.compare_eq_gt] at hcmp
    refine ⟨r / b - 1 / 2, ?_, ?_, by linarith⟩
    · simp only [ExtendedMantissa.ofMantissaAndAccuracy, if_true]
      ring
    · have : (b : ℚ) < 2 * r := by exact_mod_cast hcmp
      rw [sub_pos, lt_div_iff₀ hb']
      linarith

theorem Holds.shiftRightOne {em : ExtendedMantissa} {x : ℚ} (h : Holds em x) :
    Holds em.shiftRightOne (x / 2) := by
  obtain ⟨rest, rfl, hrest⟩ := h
  have hdigits : (em.mantissa : ℚ) = 2 * (em.mantissa / 2 : ℕ) + (em.mantissa % 2 : ℕ) := by
    exact_mod_cast (Nat.div_add_mod em.mantissa 2).symm
  refine ⟨(if em.roundBit then 1 / 4 else 0) + rest / 2, ?_, ?_⟩
  · -- The last digit of the mantissa becomes the bit that is worth a half.
    have hbit : ((em.mantissa % 2 : ℕ) : ℚ) / 2 =
        if em.shiftRightOne.roundBit then 1 / 2 else 0 := by
      unfold ExtendedMantissa.shiftRightOne
      rcases Nat.mod_two_eq_zero_or_one em.mantissa with h | h <;> simp [h]
    have hmantissa : em.shiftRightOne.mantissa = em.mantissa / 2 := rfl
    rw [← hbit, hmantissa, hdigits]
    split_ifs <;> ring
  · unfold ExtendedMantissa.shiftRightOne
    cases hround : em.roundBit <;> cases hsticky : em.stickyBit <;>
      simp only [hsticky, Bool.false_eq_true, if_true, if_false, Bool.or_true, Bool.or_false,
        Bool.or_self] at hrest ⊢
    · rw [hrest]
      norm_num
    · constructor <;> linarith
    · constructor <;> linarith
    · constructor <;> linarith

/-- Dropping digits one at a time. -/
theorem Holds.shiftRight {em : ExtendedMantissa} {x : ℚ} (h : Holds em x) (n : ℕ) :
    Holds (em >>> n) (x / 2 ^ n) := by
  change Holds (n.repeat ExtendedMantissa.shiftRightOne em) _
  induction n with
  | zero => simpa [Nat.repeat] using h
  | succ n ih =>
    rw [Nat.repeat, pow_succ, ← div_div]
    exact ih.shiftRightOne

theorem Holds.roundedMantissa {em : ExtendedMantissa} {x : ℚ} (h : Holds em x) :
    halfEven x = em.roundedMantissa := by
  obtain ⟨rest, rfl, hrest⟩ := h
  obtain ⟨m, round, sticky⟩ := em
  rw [halfEven_eq_iff, Int.cast_natCast]
  cases round <;> cases sticky <;>
    simp only [Bool.false_eq_true, if_true, if_false] at hrest <;>
    simp only [ExtendedMantissa.roundedMantissa, ExtendedMantissa.accuracy,
      Accuracy.roundToNearestEven, Bool.false_eq_true, if_true, if_false]
  · left
    rw [hrest, abs_lt]
    constructor <;> linarith
  · left
    rw [abs_lt]
    constructor <;> linarith
  · right
    rw [hrest]
    rcases Nat.mod_two_eq_zero_or_one m with hm | hm <;> rw [hm]
    · norm_num
      exact Nat.even_iff.2 hm
    · push_cast
      rw [abs_of_nonpos (by linarith)]
      refine ⟨by ring, ?_⟩
      have : Even (m + 1) := Nat.even_iff.2 (by omega)
      exact_mod_cast this
  · left
    push_cast
    rw [abs_lt]
    constructor <;> linarith

theorem Holds.bounds {em : ExtendedMantissa} {x : ℚ} (h : Holds em x) :
    (em.mantissa : ℚ) ≤ x ∧ x < em.mantissa + 1 := by
  obtain ⟨rest, rfl, hrest⟩ := h
  have : 0 ≤ rest ∧ rest < 1 / 2 := by
    split at hrest
    · exact ⟨hrest.1.le, hrest.2⟩
    · rw [hrest]
      norm_num
  split <;> constructor <;> linarith

/-! ### Rounding -/

/-- The number that is unpacked; nothing for infinity and for what is no number. -/
def amount? : UnpackedFloat → Option ℚ
  | .zero _ => some 0
  | .finite sign m e _ => some (sign.apply m * 2 ^ e)
  | .infinity _ => none
  | .notANumber => none

/-- The digits are where the format has them: 53 of them, or fewer at the lowest exponent. -/
def Canonical : UnpackedFloat → Prop
  | .finite _ m e _ => m < 2 ^ 53 ∧ -1074 ≤ e ∧ (e = -1074 ∨ 2 ^ 52 ≤ m)
  | _ => True

/-- The unpacked number is the rounding of `q`. -/
structure IsRounded (u : UnpackedFloat) (q : ℚ) : Prop where
  canonical : Canonical u
  amount : amount? u = some (rounded q)

theorem targetExponent_eq (t : ℤ) :
    Format.binary64.targetExponent t = max (t - 53) (-1074) := rfl

/-- The place to which the digits are dropped is the last place of the number. -/
theorem Holds.targetExponent {em : ExtendedMantissa} {x : ℚ} {e : ℤ} (h : Holds em x) (hx : 0 < x)
    (he : e ≤ Format.binary64.targetExponent (totalExponent em.mantissa e)) :
    Format.binary64.targetExponent (totalExponent em.mantissa e) = lastPlace (x * 2 ^ e) := by
  obtain ⟨hlow, hhigh⟩ := h.bounds
  rw [targetExponent_eq, totalExponent] at he ⊢
  rcases Nat.eq_zero_or_pos em.mantissa with hzero | hpos
  -- Without digits, the number is below the lowest place, and this is where its digits would go.
  · rw [hzero, Nat.log2_zero] at he ⊢
    rw [hzero, Nat.cast_zero, zero_add] at hhigh
    have hq : 0 < x * 2 ^ e := mul_pos hx (two_zpow_pos e)
    have hsmall : |x * 2 ^ e| < 2 ^ (-1022 : ℤ) := by
      rw [abs_of_pos hq]
      calc x * 2 ^ e < 1 * 2 ^ e := mul_lt_mul_of_pos_right hhigh (two_zpow_pos e)
        _ = 2 ^ e := one_mul _
        _ ≤ 2 ^ (-1022 : ℤ) := zpow_le_zpow_right₀ one_le_two (by omega)
    rw [lastPlace_eq_of_lt hq.ne' hsmall]
    omega
  · have hmantissa_low : (2 : ℚ) ^ (em.mantissa.log2 : ℤ) ≤ em.mantissa := by
      exact_mod_cast Nat.log2_self_le hpos.ne'
    have hmantissa_high : (em.mantissa : ℚ) + 1 ≤ 2 ^ ((em.mantissa.log2 : ℤ) + 1) := by
      exact_mod_cast Nat.lt_log2_self
    rw [lastPlace_eq (k := em.mantissa.log2 + e)]
    · omega
    · rw [zpow_add₀ two_ne_zero]
      exact mul_le_mul_of_nonneg_right (hmantissa_low.trans hlow) (two_zpow_pos e).le
    · rw [add_right_comm, zpow_add₀ two_ne_zero]
      exact mul_lt_mul_of_pos_right (hhigh.trans_le hmantissa_high) (two_zpow_pos e)

theorem shiftToTargetExponent_of_lt {n : ℕ} {e : ℤ} (hn : n < 2 ^ 53) (he : -1074 ≤ e) :
    shiftToTargetExponent .binary64 n e .exact = (.ofMantissaAndAccuracy n .exact, e) := by
  have hlog : n.log2 < 53 := by
    rcases Nat.eq_zero_or_pos n with rfl | hpos
    · decide
    · exact (Nat.log2_lt hpos.ne').2 hn
  have htarget : Format.binary64.targetExponent (totalExponent n e) ≤ e := by
    rw [targetExponent_eq, totalExponent]
    omega
  rw [shiftToTargetExponent, shiftToExponent, Int.toNat_eq_zero.2 (by omega)]
  exact congrArg _ (add_zero e)

/-- One digit too many is dropped again, and it is zero. -/
theorem shiftToTargetExponent_pow {e : ℤ} (he : -1074 ≤ e) :
    shiftToTargetExponent .binary64 (2 ^ 53) e .exact =
      (.ofMantissaAndAccuracy (2 ^ 52) .exact, e + 1) := by
  have htarget : Format.binary64.targetExponent (totalExponent (2 ^ 53) e) = e + 1 := by
    rw [targetExponent_eq, totalExponent, Nat.log2_two_pow]
    omega
  rw [shiftToTargetExponent, shiftToExponent, htarget, show (e + 1 - e).toNat = 1 by omega]
  rfl

@[simp] theorem mantissa_ofMantissaAndAccuracy (m : ℕ) (accuracy : Accuracy) :
    (ExtendedMantissa.ofMantissaAndAccuracy m accuracy).mantissa = m := by
  rcases accuracy with _ | (_ | _ | _) <;> rfl

/-- The digits of a rounded number are 53, or one more, or fewer at the lowest exponent. -/
theorem halfEven_lastPlace_bounds {q : ℚ} (hq : 0 < q) :
    halfEven (q / 2 ^ lastPlace q) ≤ 2 ^ 53 ∧
      (lastPlace q ≠ -1074 → 2 ^ 52 ≤ halfEven (q / 2 ^ lastPlace q)) := by
  constructor
  · apply halfEven_le
    have h := lt_pow_lastPlace q
    rw [abs_of_pos hq, zpow_add₀ two_ne_zero] at h
    rw [div_le_iff₀ (two_zpow_pos _), mul_comm]
    exact_mod_cast h.le
  · intro hplace
    apply le_halfEven
    have h := pow_le_of_lastPlace hq.ne' hplace
    rw [abs_of_pos hq, zpow_add₀ two_ne_zero] at h
    rw [le_div_iff₀ (two_zpow_pos _), mul_comm]
    exact_mod_cast h

/-- The end of rounding: one digit is dropped from the rounded mantissa if it has one too many. -/
def carried (n : ℕ) (e : ℤ) : UnpackedFloat :=
  let (em, e) := shiftToTargetExponent .binary64 n e .exact
  if h : em.mantissa = 0 then .zero .positive
  else .finite .positive em.mantissa e (Nat.pos_of_ne_zero h)

theorem isRounded_carried {n : ℕ} {u : ℤ} {q : ℚ} (hu : -1074 ≤ u) (hmost : n ≤ 2 ^ 53)
    (hleast : u ≠ -1074 → 2 ^ 52 ≤ n) (hrounded : rounded q = n * 2 ^ u) :
    IsRounded (carried n u) q := by
  unfold carried
  rcases hmost.lt_or_eq with hlt | rfl
  · simp only [shiftToTargetExponent_of_lt hlt hu, mantissa_ofMantissaAndAccuracy]
    split
    · next hzero => exact ⟨trivial, by simp [amount?, hrounded, hzero]⟩
    · refine ⟨⟨hlt, hu, ?_⟩, by rw [hrounded]; rfl⟩
      by_cases hlowest : u = -1074
      · exact .inl hlowest
      · exact .inr (hleast hlowest)
  · simp only [shiftToTargetExponent_pow hu, mantissa_ofMantissaAndAccuracy]
    rw [dif_neg (by decide)]
    refine ⟨⟨by decide, by omega, .inr (by decide)⟩, ?_⟩
    rw [hrounded, amount?, zpow_add_one₀ two_ne_zero]
    norm_num [Sign.apply]
    ring

/-- What is held to enough digits is rounded to the nearest number. -/
theorem isRounded_roundWithAccuracy {m : ℕ} {e : ℤ} {accuracy : Accuracy} {x : ℚ}
    (h : Holds (.ofMantissaAndAccuracy m accuracy) x) (hx : 0 < x)
    (he : e ≤ Format.binary64.targetExponent (totalExponent m e)) :
    IsRounded (roundWithAccuracy .binary64 .positive m e accuracy) (x * 2 ^ e) := by
  have hplace := h.targetExponent (e := e) hx (by rwa [mantissa_ofMantissaAndAccuracy])
  rw [mantissa_ofMantissaAndAccuracy] at hplace
  rw [hplace] at he
  have hbounds := halfEven_lastPlace_bounds (mul_pos hx (two_zpow_pos e))
  set u := lastPlace (x * 2 ^ e) with hu
  set em := ExtendedMantissa.ofMantissaAndAccuracy m accuracy >>> (u - e).toNat with hem
  have hshift : shiftToTargetExponent .binary64 m e accuracy = (em, u) := by
    rw [shiftToTargetExponent, shiftToExponent, hplace, ← hem, show e + (u - e).toNat = u by omega]
  have hdigits : halfEven (x * 2 ^ e / 2 ^ u) = em.roundedMantissa := by
    rw [← (h.shiftRight (u - e).toNat).roundedMantissa, ← zpow_natCast,
      show ((u - e).toNat : ℤ) = u - e by omega, zpow_sub₀ two_ne_zero, div_div_eq_mul_div]
  -- The first shift goes down to the last place; the second one is only for a carry.
  have hfinal : roundWithAccuracy .binary64 .positive m e accuracy =
      carried em.roundedMantissa u := by
    rw [roundWithAccuracy, hshift]
    rfl
  rw [hdigits] at hbounds
  rw [hfinal]
  refine isRounded_carried (neg_le_lastPlace _) (by exact_mod_cast hbounds.1)
    (fun hlowest => by exact_mod_cast hbounds.2 hlowest) ?_
  rw [rounded, ← hu, hdigits, Int.cast_natCast]

/-! ### Operations -/

theorem isRounded_mul {m₁ m₂ : ℕ} (e₁ e₂ : ℤ) (h₁ : 0 < m₁) (h₂ : 0 < m₂)
    (hdigits : 2 ^ 52 ≤ m₁ * m₂) :
    IsRounded (mul .binary64 (.finite .positive m₁ e₁ h₁) (.finite .positive m₂ e₂ h₂))
      (m₁ * 2 ^ e₁ * (m₂ * 2 ^ e₂)) := by
  have hlog : 52 ≤ (m₁ * m₂).log2 := (Nat.le_log2 (Nat.mul_pos h₁ h₂).ne').2 hdigits
  have hpos : (0 : ℚ) < (m₁ * m₂ : ℕ) := by exact_mod_cast Nat.mul_pos h₁ h₂
  have hround := isRounded_roundWithAccuracy (e := e₁ + e₂) (holds_exact (m₁ * m₂)) hpos (by
    rw [targetExponent_eq, totalExponent]
    omega)
  rw [zpow_add₀ two_ne_zero, Nat.cast_mul, mul_mul_mul_comm] at hround
  exact hround

/-- The quotient of whole numbers has as many digits as the numbers of digits let expect, or one
less. -/
theorem log2_le_log2_div (a : ℕ) {b : ℕ} (hb : 0 < b) : a.log2 ≤ b.log2 + (a / b).log2 + 1 := by
  by_cases hfew : a.log2 ≤ b.log2 + 1
  · omega
  · have ha : a ≠ 0 := by
      rintro rfl
      simp at hfew
    have hpower : 2 ^ (a.log2 - (b.log2 + 1)) ≤ a / b := by
      rw [Nat.le_div_iff_mul_le hb]
      calc 2 ^ (a.log2 - (b.log2 + 1)) * b
          ≤ 2 ^ (a.log2 - (b.log2 + 1)) * 2 ^ (b.log2 + 1) :=
            Nat.mul_le_mul_left _ Nat.lt_log2_self.le
        _ = 2 ^ a.log2 := by rw [← pow_add, Nat.sub_add_cancel (by omega)]
        _ ≤ a := Nat.log2_self_le ha
    have := (Nat.le_log2 ((Nat.two_pow_pos _).trans_le hpower).ne').2 hpower
    omega

theorem log2_mul_two_pow {m : ℕ} (hm : 0 < m) (k : ℕ) : (m * 2 ^ k).log2 = m.log2 + k := by
  rw [Nat.log2_eq_iff (Nat.mul_pos hm (Nat.two_pow_pos k)).ne', add_right_comm, pow_add, pow_add]
  exact ⟨Nat.mul_le_mul_right _ (Nat.log2_self_le hm.ne'),
    Nat.mul_lt_mul_of_pos_right Nat.lt_log2_self (Nat.two_pow_pos k)⟩

theorem isRounded_div {m₁ m₂ : ℕ} (e₁ e₂ : ℤ) (h₁ : 0 < m₁) (h₂ : 0 < m₂) :
    IsRounded (div .binary64 (.finite .positive m₁ e₁ h₁) (.finite .positive m₂ e₂ h₂))
      (m₁ * 2 ^ e₁ / (m₂ * 2 ^ e₂)) := by
  set t := min (e₁ - e₂)
    (Format.binary64.targetExponent (totalExponent m₁ e₁ - totalExponent m₂ e₂)) with ht
  set k := (e₁ - e₂ - t).toNat with hk
  have hvalue : (m₁ : ℚ) * 2 ^ e₁ / (m₂ * 2 ^ e₂) = (m₁ * 2 ^ k : ℕ) / m₂ * 2 ^ t := by
    have hsplit : e₁ = k + t + e₂ := by omega
    rw [hsplit, zpow_add₀ two_ne_zero, zpow_add₀ two_ne_zero, zpow_natCast, ← mul_assoc,
      mul_div_mul_right _ _ (two_zpow_pos e₂).ne', ← mul_assoc, mul_div_right_comm]
    push_cast
    rfl
  have hpos : (0 : ℚ) < (m₁ * 2 ^ k : ℕ) / m₂ :=
    div_pos (by exact_mod_cast Nat.mul_pos h₁ (Nat.two_pow_pos k)) (by exact_mod_cast h₂)
  rw [hvalue]
  have hround := isRounded_roundWithAccuracy (e := t) (holds_div (m₁ * 2 ^ k) h₂) hpos (by
    have hlog := log2_le_log2_div (m₁ * 2 ^ k) h₂
    rw [log2_mul_two_pow h₁] at hlog
    rw [targetExponent_eq] at ht ⊢
    unfold totalExponent at *
    omega)
  rw [← Nat.shiftLeft_eq] at hround ⊢
  exact hround

theorem isRounded_round {m : ℕ} (hm : 0 < m) (e : ℤ) :
    IsRounded (round .binary64 .positive m e) (m * 2 ^ e) := by
  set k := (e - Format.binary64.targetExponent (totalExponent m e)).toNat with hk
  have hpos : (0 : ℚ) < (m * 2 ^ k : ℕ) := by
    exact_mod_cast Nat.mul_pos hm (Nat.two_pow_pos k)
  have hround := isRounded_roundWithAccuracy (e := e - k) (holds_exact (m * 2 ^ k)) hpos (by
    rw [targetExponent_eq] at hk ⊢
    unfold totalExponent at *
    rw [log2_mul_two_pow hm]
    omega)
  have hvalue : ((m * 2 ^ k : ℕ) : ℚ) * 2 ^ (e - k) = m * 2 ^ e := by
    rw [zpow_sub₀ two_ne_zero, zpow_natCast]
    push_cast
    field_simp
  rw [hvalue, ← Nat.shiftLeft_eq] at hround
  exact hround

theorem isRounded_ofNat (n : ℕ) : IsRounded (UnpackedFloat.ofNat .binary64 n) n := by
  rcases Nat.eq_zero_or_pos n with rfl | hn
  · refine ⟨trivial, ?_⟩
    rw [Nat.cast_zero, rounded_zero]
    rfl
  · have hcmp : compare (n : ℤ) 0 = .gt := by
      rw [Int.compare_eq_gt]
      omega
    have hround := isRounded_round hn 0
    rw [zpow_zero, mul_one] at hround
    rw [UnpackedFloat.ofNat, UnpackedFloat.ofInt, UnpackedFloat.normalize, hcmp]
    exact hround

end ArmRover.Binary64
