import ArmRover.Scalar.Binary64
import ArmRover.Text.Numeral
import ArmRover.Proofs.Decimal.Packed

/-!
# Decimal numbers

A number that is written in decimal is rounded once, however it is computed: by one operation on
numbers without loss, by the logic of the machine, or not at all where the exponent alone says that
it is zero or out of range.

* `Binary64.rounded_eq_zero_of_size`, `Binary64.overflow_of_size` — what the number of digits and
  the exponent say.
* `Binary64.amount?_ofScientific`, `Binary64.rational?_ofScientific` — numbers `m * 10 ^ e`.
* `Text.Numeral.number?`, `Text.Numeral.rational?_value` — numerals.
-/

namespace ArmRover.Binary64

open Float.Model Float.Model.UnpackedFloat

/-! ### Sizes -/

theorem two_zpow_le_ten_zpow {k : ℤ} (hk : 0 ≤ k) : (2 : ℚ) ^ (3 * k) ≤ 10 ^ k := by
  rw [zpow_mul]
  exact zpow_le_zpow_left₀ hk (by norm_num) (by norm_num)

theorem ten_zpow_neg_le {k : ℤ} (hk : 0 ≤ k) : (10 : ℚ) ^ (-k) ≤ 2 ^ (-(3 * k)) := by
  rw [zpow_neg, zpow_neg]
  exact inv_anti₀ (two_zpow_pos _) (two_zpow_le_ten_zpow hk)

section
variable {m : ℕ} {e : ℤ}

/-- A number with few digits for its exponent is too small to be told from zero. -/
theorem rounded_eq_zero_of_size (h : ((Nat.toDigits 10 m).length : ℤ) + e < -400) :
    rounded (m * 10 ^ e) = 0 := by
  apply rounded_eq_zero
  have hten : (0 : ℚ) < 10 ^ e := zpow_pos (by norm_num) e
  have hdigits : m < 10 ^ (Nat.toDigits 10 m).length :=
    (Nat.length_toDigits_le_iff (by decide) Nat.length_toDigits_pos).1 le_rfl
  generalize (Nat.toDigits 10 m).length = size at h hdigits
  rw [abs_of_nonneg (mul_nonneg (Nat.cast_nonneg m) hten.le)]
  calc (m : ℚ) * 10 ^ e ≤ 10 ^ (size : ℤ) * 10 ^ e :=
        mul_le_mul_of_nonneg_right (by exact_mod_cast hdigits.le) hten.le
    _ = 10 ^ (size + e) := (zpow_add₀ (by norm_num) _ _).symm
    _ ≤ 10 ^ (-401 : ℤ) := zpow_le_zpow_right₀ (by norm_num) (by omega)
    _ ≤ 2 ^ (-(3 * 401) : ℤ) := ten_zpow_neg_le (by decide)
    _ < 2 ^ (-1075 : ℤ) := zpow_lt_zpow_right₀ one_lt_two (by decide)

/-- A number with many digits for its exponent is above the range of the format. -/
theorem overflow_of_size (hm : m ≠ 0) (h : 400 < ((Nat.toDigits 10 m).length : ℤ) + e) :
    (2 : ℚ) ^ (1024 : ℤ) ≤ m * 10 ^ e := by
  have hten : (0 : ℚ) < 10 ^ e := zpow_pos (by norm_num) e
  have hleading : 10 ^ ((Nat.toDigits 10 m).length - 1) ≤ m := by
    by_contra hlt
    rcases Nat.eq_zero_or_pos ((Nat.toDigits 10 m).length - 1) with hone | hmore
    · rw [hone] at hlt
      omega
    · have := (Nat.length_toDigits_le_iff (by decide) hmore).2 (not_le.1 hlt)
      omega
  have hpos : 0 < (Nat.toDigits 10 m).length := Nat.length_toDigits_pos
  generalize (Nat.toDigits 10 m).length = size at *
  calc (2 : ℚ) ^ (1024 : ℤ) ≤ 2 ^ (3 * 400 : ℤ) := zpow_le_zpow_right₀ one_le_two (by decide)
    _ ≤ 10 ^ (400 : ℤ) := two_zpow_le_ten_zpow (by decide)
    _ ≤ 10 ^ (((size - 1 : ℕ) : ℤ) + e) := zpow_le_zpow_right₀ (by norm_num) (by omega)
    _ = 10 ^ ((size - 1 : ℕ) : ℤ) * 10 ^ e := zpow_add₀ (by norm_num) _ _
    _ ≤ m * 10 ^ e := mul_le_mul_of_nonneg_right (by exact_mod_cast hleading) hten.le

end

/-- There are no more decimal than binary digits. -/
theorem length_toDigits_le_log2 (m : ℕ) : (Nat.toDigits 10 m).length ≤ m.log2 + 1 := by
  rw [Nat.length_toDigits_le_iff (by decide) (Nat.succ_pos _)]
  exact Nat.lt_log2_self.trans_le (Nat.pow_le_pow_left (by decide) _)

/-! ### The logic of the machine -/

theorem isRounded_mul_pow {m k : ℕ} (hm : 0 < m <<< 53) (hk : 0 < 10 ^ k) :
    IsRounded (mul .binary64 (.finite .positive (m <<< 53) (-53) hm)
      (.finite .positive (10 ^ k) 0 hk)) (m * 10 ^ k) := by
  have hdigits : 2 ^ 52 ≤ m <<< 53 * 10 ^ k := by
    rw [Nat.shiftLeft_eq] at hm ⊢
    calc 2 ^ 52 ≤ m * 2 ^ 53 := by omega
      _ ≤ m * 2 ^ 53 * 10 ^ k := Nat.le_mul_of_pos_right _ hk
  have hround := isRounded_mul (-53) 0 hm hk hdigits
  have hvalue : ((m <<< 53 : ℕ) : ℚ) * 2 ^ (-53 : ℤ) * ((10 ^ k : ℕ) * 2 ^ (0 : ℤ)) =
      m * 10 ^ k := by
    rw [Nat.shiftLeft_eq, Nat.cast_mul, Nat.cast_pow, Nat.cast_pow, Nat.cast_ofNat, Nat.cast_ofNat,
      zpow_zero, mul_one, zpow_neg, zpow_ofNat, mul_inv_cancel_right₀ (pow_ne_zero _ two_ne_zero)]
  rwa [hvalue] at hround

theorem isRounded_div_pow {m k : ℕ} (hm : 0 < m) (hk : 0 < 10 ^ k) :
    IsRounded (div .binary64 (.finite .positive m 0 hm) (.finite .positive (10 ^ k) 0 hk))
      (m / 10 ^ k) := by
  have hround := isRounded_div 0 0 hm hk
  rwa [zpow_zero, mul_one, mul_one, Nat.cast_pow, Nat.cast_ofNat] at hround

/-- Decimal numbers are rounded once by the logic of the machine. -/
theorem amount?_ofScientific (m : ℕ) (e : ℤ) :
    amount? (Float.Model.ofScientific m e).unpack = inRange? (rounded (m * 10 ^ e)) := by
  have hsize := length_toDigits_le_log2 m
  rw [Float.Model.ofScientific, UnpackedFloat.ofScientific]
  split_ifs with hzero hlarge hsmall hwhole
  · rw [amount?_unpack_pack (by trivial), amount?, Option.bind_some, hzero, Nat.cast_zero, zero_mul,
      rounded_zero]
  · change (2048 : ℤ) < e at hlarge
    have hoverflow := overflow_of_size (e := e) hzero (by omega)
    rw [amount?_unpack_pack (by trivial), inRange?_rounded_eq_none hoverflow, amount?,
      Option.bind_none]
  · change e < -(2048 + (m.log2 : ℤ)) at hsmall
    have hunderflow := rounded_eq_zero_of_size (m := m) (e := e) (by omega)
    rw [amount?_unpack_pack (by trivial), hunderflow, amount?, Option.bind_some]
  · obtain ⟨k, rfl⟩ := Int.eq_ofNat_of_zero_le hwhole
    rw [zpow_natCast]
    exact (isRounded_mul_pow _ _).amount?_unpack_pack
  · have hpower : (10 : ℚ) ^ e = (10 ^ (-e).toNat)⁻¹ := by
      rw [← zpow_natCast, ← zpow_neg, Int.toNat_of_nonneg (by omega), neg_neg]
    rw [hpower, ← div_eq_mul_inv]
    exact (isRounded_div_pow _ _).amount?_unpack_pack

/-! ### Powers of ten -/

/-- The unpacked number is `10 ^ k`, with all its digits. -/
def isPowerOfTen (k : ℕ) : UnpackedFloat → Bool
  | .finite .positive m e _ => 2 ^ 52 ≤ m && m * 2 ^ e.toNat == 10 ^ k * 2 ^ (-e).toNat
  | _ => false

theorem isPowerOfTen_table (k : Fin Float.exactlyRepresentablePowersOfTen.size) :
    isPowerOfTen k Float.exactlyRepresentablePowersOfTen[k].toModel.unpack = true := by
  revert k
  decide +kernel

theorem exists_of_isPowerOfTen {k : ℕ} {u : UnpackedFloat} (h : isPowerOfTen k u = true) :
    ∃ m e hm, u = .finite .positive m e hm ∧ 2 ^ 52 ≤ m ∧ (m : ℚ) * 2 ^ e = 10 ^ k := by
  unfold isPowerOfTen at h
  split at h
  · next m e hm =>
    rw [Bool.and_eq_true, decide_eq_true_eq, beq_iff_eq] at h
    refine ⟨m, e, hm, rfl, h.1, ?_⟩
    rw [mul_two_zpow, h.2, Nat.cast_mul,
      mul_div_cancel_right₀ _ (by exact_mod_cast (Nat.two_pow_pos _).ne'), Nat.cast_pow,
      Nat.cast_ofNat]
  · exact absurd h Bool.false_ne_true

/-! ### Operations on numbers without loss -/

/-- A number that is not negative is zero, of either sign, or has a mantissa. -/
theorem unpacked_of_nonneg {u : UnpackedFloat} {v : ℚ} (h : amount? u = some v) (hv : 0 ≤ v) :
    (∃ sign, u = .zero sign ∧ v = 0) ∨ ∃ m e hm, u = .finite .positive m e hm ∧ v = m * 2 ^ e := by
  cases u with
  | notANumber => cases h
  | infinity sign => cases h
  | zero sign => exact .inl ⟨sign, rfl, (Option.some.inj h).symm⟩
  | finite sign m e hm =>
    have hvalue : (sign.apply m : ℤ) * 2 ^ e = v := Option.some.inj h
    cases sign
    · have hpos : 0 < (m : ℚ) * 2 ^ e := mul_pos (by exact_mod_cast hm) (two_zpow_pos e)
      rw [Sign.apply, Int.cast_neg, Int.cast_natCast, neg_mul] at hvalue
      linarith
    · exact .inr ⟨m, e, hm, rfl, hvalue.symm⟩

/-- Whole numbers of 53 digits are converted without loss. -/
theorem amount?_toFloat {m : ℕ} (hm : m < 2 ^ 53) :
    amount? m.toUInt64.toFloat.toModel.unpack = some (m : ℚ) := by
  have hwhole : m.toUInt64.toNat = m := Nat.mod_eq_of_lt (by omega)
  have hdigits : |(m : ℤ)| < 2 ^ 53 := by
    rw [Nat.abs_cast]
    exact_mod_cast hm
  have hsame : rounded m = m := by
    have h := rounded_eq_self (e := 0) hdigits (by decide)
    rwa [zpow_zero, mul_one, Int.cast_natCast] at h
  have hround : amount? m.toUInt64.toFloat.toModel.unpack = inRange? (rounded m.toUInt64.toNat) :=
    (isRounded_ofNat m.toUInt64.toNat).amount?_unpack_pack
  have hbelow : |(m : ℚ)| < 2 ^ (53 : ℤ) := by exact_mod_cast hdigits
  rw [hround, hwhole, hsame, inRange?_of_lt hbelow (by decide)]

section
variable {x y : Float} {v : ℚ} {n : ℕ} {f : ℤ} {hn : 0 < n}

/-- The quotient of numbers of the machine is rounded once. -/
theorem amount?_div (hx : amount? x.toModel.unpack = some v) (hv : 0 ≤ v)
    (hy : y.toModel.unpack = .finite .positive n f hn) :
    amount? (x / y).toModel.unpack = inRange? (rounded (v / (n * 2 ^ f))) := by
  change amount? (Float.Model.pack (.div .binary64 x.toModel.unpack y.toModel.unpack)).unpack = _
  rw [hy]
  rcases unpacked_of_nonneg hx hv with ⟨sign, hu, rfl⟩ | ⟨m, e, hm, hu, rfl⟩
  · have hzero : UnpackedFloat.div .binary64 (.zero sign) (.finite .positive n f hn) =
        .zero (sign / .positive) := by
      rw [UnpackedFloat.div]
    rw [hu, hzero, zero_div, rounded_zero, amount?_unpack_pack (by trivial), amount?,
      Option.bind_some]
  · rw [hu]
    exact (isRounded_div e f hm hn).amount?_unpack_pack

/-- So is the product, if one of the factors has all its digits. -/
theorem amount?_mul (hx : amount? x.toModel.unpack = some v) (hv : 0 ≤ v)
    (hy : y.toModel.unpack = .finite .positive n f hn) (hdigits : 2 ^ 52 ≤ n) :
    amount? (x * y).toModel.unpack = inRange? (rounded (v * (n * 2 ^ f))) := by
  change amount? (Float.Model.pack (.mul .binary64 x.toModel.unpack y.toModel.unpack)).unpack = _
  rw [hy]
  rcases unpacked_of_nonneg hx hv with ⟨sign, hu, rfl⟩ | ⟨m, e, hm, hu, rfl⟩
  · have hzero : UnpackedFloat.mul .binary64 (.zero sign) (.finite .positive n f hn) =
        .zero (sign * .positive) := by
      rw [UnpackedFloat.mul]
    rw [hu, hzero, zero_mul, rounded_zero, amount?_unpack_pack (by trivial), amount?,
      Option.bind_some]
  · rw [hu]
    have hproduct := hdigits.trans (Nat.le_mul_of_pos_left n hm)
    exact (isRounded_mul e f hm hn hproduct).amount?_unpack_pack

end

/-- A number in scientific notation is rounded once. -/
theorem rational?_ofScientific (m : ℕ) (negative : Bool) (k : ℕ) :
    (decode (Float.ofScientific m negative k)).rational? =
      inRange? (rounded (m * 10 ^ (if negative then -(k : ℤ) else k))) := by
  rw [rational?_decode, Float.ofScientific]
  split_ifs with hfew hneg hneg
  -- With few digits and a small exponent, one operation on numbers without loss is enough.
  · obtain ⟨n, f, hn, hpower, -, hvalue⟩ :=
      exists_of_isPowerOfTen (isPowerOfTen_table ⟨k, Nat.lt_succ_of_le hfew.2⟩)
    have h := amount?_div (amount?_toFloat hfew.1) (Nat.cast_nonneg m) hpower
    rw [hvalue] at h
    rw [zpow_neg, zpow_natCast, ← div_eq_mul_inv]
    exact h
  · obtain ⟨n, f, hn, hpower, hdigits, hvalue⟩ :=
      exists_of_isPowerOfTen (isPowerOfTen_table ⟨k, Nat.lt_succ_of_le hfew.2⟩)
    have h := amount?_mul (amount?_toFloat hfew.1) (Nat.cast_nonneg m) hpower hdigits
    rw [hvalue] at h
    rw [zpow_natCast]
    exact h
  · have h := amount?_ofScientific m (Int.negOfNat k)
    rw [Int.negOfNat_eq] at h
    exact h
  · exact amount?_ofScientific m k

end ArmRover.Binary64

/-! ### Numerals -/

namespace ArmRover.Text.Numeral

open Binary64

/-- The number that is written, as it stands; nothing for the words. -/
def number? : Numeral → Option ℚ
  | decimal negative digits exponent =>
    some ((if negative then -digits else digits : ℤ) * 10 ^ exponent)
  | infinity _ => none
  | nan => none

theorem decode_infinity (negative : Bool) :
    decode (value (infinity negative)) = .infinity negative := by
  revert negative
  decide +kernel

theorem decode_nan : decode (value nan) = .nan := by decide +kernel

theorem rational?_zero : (decode (Scalar.ofInt 0)).rational? = some 0 := by
  have h : decode (Scalar.ofInt 0) = .finite false 0 (-1074) := by decide +kernel
  rw [h, rational?]
  simp

theorem ofInt_natCast (n : ℕ) :
    (Scalar.ofInt (n : ℤ) : Float) = Float.ofScientific n false 0 := rfl

/-- The magnitude is rounded once. -/
theorem rational?_magnitude (digits : ℕ) (exponent : ℤ) :
    (decode (magnitude digits exponent)).rational? =
      inRange? (rounded (digits * 10 ^ exponent)) := by
  unfold magnitude
  extract_lets size
  split_ifs with hsmall hlarge hneg
  · have hzero : rounded (digits * 10 ^ exponent) = 0 := by
      rcases hsmall with rfl | hsmall
      · rw [Nat.cast_zero, zero_mul, rounded_zero]
      · exact rounded_eq_zero_of_size hsmall
    rw [hzero, inRange?_zero]
    exact rational?_zero
  · rw [inRange?_rounded_eq_none (overflow_of_size (fun h => hsmall (.inl h)) hlarge)]
    exact congrArg rational? (decode_infinity false)
  · have h := rational?_ofScientific digits true exponent.natAbs
    rw [if_pos rfl, show -(exponent.natAbs : ℤ) = exponent by omega] at h
    exact h
  · have hwhole : (Scalar.ofInt (digits * 10 ^ exponent.toNat) : Float) =
        Float.ofScientific (digits * 10 ^ exponent.toNat) false 0 := by
      rw [← ofInt_natCast, Nat.cast_mul]
      rfl
    have hvalue : (digits : ℚ) * 10 ^ exponent = (digits * 10 ^ exponent.toNat : ℕ) := by
      rw [Nat.cast_mul, Nat.cast_pow, Nat.cast_ofNat, ← zpow_natCast,
        Int.toNat_of_nonneg (by omega)]
    have h := rational?_ofScientific (digits * 10 ^ exponent.toNat) false 0
    rw [if_neg Bool.false_ne_true, Nat.cast_zero, zpow_zero, mul_one, ← hvalue] at h
    rw [hwhole]
    exact h

/-- A numeral stands for what it writes, rounded once, if that is in range. -/
theorem rational?_value (numeral : Numeral) :
    (decode numeral.value).rational? = numeral.number?.bind (inRange? ∘ rounded) := by
  cases numeral with
  | decimal negative digits exponent =>
    rw [value, number?, Option.bind_some, Function.comp_apply]
    cases negative
    · exact rational?_magnitude digits exponent
    · have h := rational?_decode_neg (magnitude digits exponent)
      rw [rational?_magnitude, ← inRange?_neg, ← rounded_neg, ← neg_mul] at h
      simp only [if_true, Int.cast_neg, Int.cast_natCast]
      exact h
  | infinity negative => exact congrArg rational? (decode_infinity negative)
  | nan => exact congrArg rational? decode_nan

end ArmRover.Text.Numeral
