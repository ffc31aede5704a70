import ArmRover.Decimal.Binary
import ArmRover.Proofs.Decimal.Unpacked

/-!
# Packed numbers

The 64 bits of a number are its sign, its exponent and its mantissa without the leading digit. They
are read in the same way by the logic of the machine and by `decode`, and packing loses nothing of
a number that has its digits where the format has them, unless it is out of range.

* `Binary64.rational?`, `Binary64.rational?_decode` — the number that is read.
* `Binary64.unpack_pack`, `Binary64.amount?_unpack_pack` — what is packed.
* `Binary64.rational?_decode_neg` — negation.
* `Binary64.towardZero`, `Binary64.truncate_eq` — the whole part.
-/

namespace ArmRover.Binary64

open Float.Model Float.Model.UnpackedFloat

/-! ### Bits -/

theorem toNat_leading (fraction : BitVec 52) :
    (1#1 ++ fraction).toNat = 2 ^ 52 + fraction.toNat := by
  rw [BitVec.toNat_append, ← Nat.shiftLeft_add_eq_or_of_lt fraction.isLt]
  rfl

section
variable (b : BitVec 64)

theorem toNat_unpackMantissa :
    (@unpackMantissa .binary64 b).toNat = b.toNat % 2 ^ 52 := by
  simp [unpackMantissa]

theorem toNat_unpackExponent :
    (@unpackExponent .binary64 b).toNat = b.toNat / 2 ^ 52 % 2 ^ 11 := by
  simp [unpackExponent, Nat.shiftRight_eq_div_pow]

theorem toNat_unpackSign : (@unpackSign .binary64 b).toNat = b.toNat / 2 ^ 63 := by
  have := b.isLt
  simp [unpackSign, Nat.shiftRight_eq_div_pow]
  omega

end

/-! ### Reading -/

/-- The number that was read; nothing for infinity and for what is no number. -/
def rational? : Binary64 → Option ℚ
  | .finite negative m e => some ((if negative then -m else m : ℤ) * 2 ^ e)
  | _ => none

theorem apply_unpackSign (b : BitVec 64) (m : ℕ) :
    (Sign.ofBitVec (@unpackSign .binary64 b)).apply m =
      if b.toNat / 2 ^ 63 == 1 then -(m : ℤ) else m := by
  rw [← toNat_unpackSign]
  generalize @unpackSign .binary64 b = sign
  have : sign = 0#1 ∨ sign = 1#1 := by
    have := sign.isLt
    rw [← BitVec.toNat_inj, ← BitVec.toNat_inj]
    simp
    omega
  rcases this with rfl | rfl <;> rfl

/-- The bits are read as the logic of the machine's floating point reads them. -/
theorem rational?_decode (x : Float) : (decode x).rational? = amount? x.toModel.unpack := by
  have hbits : x.toBits.toNat = x.toModel.toBits.toBitVec.toNat := rfl
  rw [Float.Model.unpack, decode, hbits]
  generalize x.toModel.toBits.toBitVec = b
  have hlast : @unpackExponent .binary64 b = -1#_ ↔ b.toNat / 2 ^ 52 % 2 ^ 11 = 2047 := by
    rw [← BitVec.toNat_inj, toNat_unpackExponent]
    rfl
  have hfirst : @unpackExponent .binary64 b = 0#_ ↔ b.toNat / 2 ^ 52 % 2 ^ 11 = 0 := by
    rw [← BitVec.toNat_inj, toNat_unpackExponent]
    rfl
  have hfraction : @unpackMantissa .binary64 b = 0#_ ↔ b.toNat % 2 ^ 52 = 0 := by
    rw [← BitVec.toNat_inj, toNat_unpackMantissa]
    rfl
  simp only [UnpackedFloat.unpack, hlast, hfirst, hfraction, toNat_unpackExponent]
  split_ifs with hspecial hzero hsubnormal hzero
  · rfl
  · rfl
  · rw [hzero]
    simp [rational?, amount?]
  · rw [rational?, amount?, apply_unpackSign, toNat_unpackMantissa, hsubnormal]
    rfl
  · rw [rational?, amount?, apply_unpackSign, toNat_leading, toNat_unpackMantissa]
    rfl

/-! ### Packing -/

/-- The exponent is not above the largest one of the format. -/
def Fits : UnpackedFloat → Prop
  | .finite _ _ e _ => e ≤ 971
  | _ => True

theorem unpack_normal (sign : Sign) {exponent : BitVec 11} (fraction : BitVec 52)
    (hlow : exponent.toNat ≠ 0) (hhigh : exponent.toNat ≠ 2047) :
    UnpackedFloat.unpack .binary64 (packComponents .binary64 sign exponent fraction) =
      .finite sign (2 ^ 52 + fraction.toNat) (exponent.toNat - 1075) (by omega) := by
  have hlast : exponent ≠ -1#11 := by
    rintro rfl
    exact hhigh rfl
  have hfirst : exponent ≠ 0#11 := by
    rintro rfl
    exact hlow rfl
  simp only [UnpackedFloat.unpack, unpackExponent_packComponents, unpackMantissa_packComponents,
    unpackSign_packComponents, Sign.ofBitVec_toBitVec]
  rw [if_neg hlast, if_neg hfirst]
  congr 1
  exact toNat_leading fraction

theorem unpack_subnormal (sign : Sign) {fraction : BitVec 52} (h : 0 < fraction.toNat) :
    UnpackedFloat.unpack .binary64 (packComponents .binary64 sign 0 fraction) =
      .finite sign fraction.toNat (-1074) h := by
  have hfraction : fraction ≠ 0#52 := by
    rintro rfl
    exact h.ne' rfl
  simp only [UnpackedFloat.unpack, unpackExponent_packComponents, unpackMantissa_packComponents,
    unpackSign_packComponents, Sign.ofBitVec_toBitVec]
  rw [if_neg (by decide), if_pos (show (0 : BitVec 11) = 0#11 from rfl), dif_neg hfraction]
  rfl

/-- Packing loses nothing of a number that the format has. -/
theorem unpack_pack {u : UnpackedFloat} (hcanonical : Canonical u) (hfits : Fits u) :
    (Float.Model.pack u).unpack = u := by
  change UnpackedFloat.unpack .binary64 (UnpackedFloat.pack .binary64 u) = u
  cases u with
  | notANumber => rfl
  | infinity sign => cases sign <;> rfl
  | zero sign => cases sign <;> rfl
  | finite sign m e hm =>
    obtain ⟨hmost, hleast, hdigits⟩ := hcanonical
    change e ≤ 971 at hfits
    have hbiased : (e + Format.binary64.exponentBias +
        Format.binary64.mantissaBitsWithoutImplicit).toNat = (e + 1075).toNat := by
      change (e + 1023 + 52).toNat = _
      omega
    have hinside : ¬2 ^ Format.binary64.exponentBits ≤ (e + 1075).toNat + 1 := by
      change ¬2048 ≤ _
      omega
    rw [UnpackedFloat.pack, hbiased, if_neg hinside]
    -- The leading digit of a normal number is not packed; a subnormal one has none.
    by_cases hnormal : 2 ^ 52 ≤ m
    · have hlog : m.log2 + 1 = Format.binary64.mantissaBits := by
        rw [(Nat.log2_eq_iff hm.ne').2 ⟨hnormal, hmost⟩]
        rfl
      rw [if_pos hlog]
      have hexponent : (BitVec.ofNat 11 (e + 1075).toNat).toNat = (e + 1075).toNat :=
        Nat.mod_eq_of_lt (by omega)
      have hfraction : (BitVec.ofNat 52 m).toNat = m - 2 ^ 52 := by
        rw [BitVec.toNat_ofNat]
        omega
      have hlow : (BitVec.ofNat 11 (e + 1075).toNat).toNat ≠ 0 := by omega
      have hhigh : (BitVec.ofNat 11 (e + 1075).toNat).toNat ≠ 2047 := by omega
      have hunpacked := unpack_normal sign (.ofNat 52 m) hlow hhigh
      refine hunpacked.trans ?_
      congr 1 <;> omega
    · have hlog : m.log2 + 1 ≠ Format.binary64.mantissaBits := by
        have := (Nat.log2_lt hm.ne').2 (not_le.1 hnormal)
        change m.log2 + 1 ≠ 53
        omega
      rw [if_neg hlog]
      have hfraction : (BitVec.ofNat 52 m).toNat = m := Nat.mod_eq_of_lt (not_le.1 hnormal)
      have hpos : 0 < (BitVec.ofNat 52 m).toNat := by omega
      have hunpacked := unpack_subnormal sign hpos
      refine hunpacked.trans ?_
      congr 1
      omega

/-- A number above the range of the format is packed as infinity. -/
theorem unpack_pack_of_lt {sign : Sign} {m : ℕ} {e : ℤ} {hm : 0 < m} (h : 971 < e) :
    (Float.Model.pack (.finite sign m e hm)).unpack = .infinity sign := by
  change UnpackedFloat.unpack .binary64 (UnpackedFloat.pack .binary64 _) = _
  rw [UnpackedFloat.pack, if_pos]
  · cases sign <;> rfl
  · change 2048 ≤ (e + 1023 + 52).toNat + 1
    omega

theorem abs_apply (sign : Sign) (m : ℕ) : |((sign.apply m : ℤ) : ℚ)| = m := by
  cases sign
  · rw [Sign.apply, Int.cast_neg, abs_neg, Int.cast_natCast, Nat.abs_cast]
  · rw [Sign.apply, Int.cast_natCast, Nat.abs_cast]

/-- What is packed and unpacked again is the same number if it is in the range of the format. -/
theorem amount?_unpack_pack {u : UnpackedFloat} (h : Canonical u) :
    amount? (Float.Model.pack u).unpack = (amount? u).bind inRange? := by
  cases u with
  | notANumber => rfl
  | infinity sign => cases sign <;> rfl
  | zero sign =>
    rw [unpack_pack h trivial, amount?, Option.bind_some, inRange?_zero]
  | finite sign m e hm =>
    have habs : |((sign.apply m : ℤ) : ℚ) * 2 ^ e| = m * 2 ^ e := by
      rw [abs_mul, abs_apply, abs_of_pos (two_zpow_pos e)]
    rcases le_or_gt e 971 with hfits | hlarge
    · have hbelow : (m : ℚ) * 2 ^ e < 2 ^ (53 + e) := by
        rw [zpow_add₀ two_ne_zero]
        exact mul_lt_mul_of_pos_right (by exact_mod_cast h.1) (two_zpow_pos e)
      rw [unpack_pack h hfits, amount?, Option.bind_some]
      exact (inRange?_of_lt (habs.trans_lt hbelow) (by omega)).symm
    · have hleading : 2 ^ 52 ≤ m := h.2.2.resolve_left (by omega)
      have habove : (2 : ℚ) ^ (52 + e) ≤ m * 2 ^ e := by
        rw [zpow_add₀ two_ne_zero]
        exact mul_le_mul_of_nonneg_right (by exact_mod_cast hleading) (two_zpow_pos e).le
      rw [unpack_pack_of_lt hlarge]
      exact (inRange?_of_le (habove.trans_eq habs.symm) (by omega)).symm

theorem IsRounded.amount?_unpack_pack {u : UnpackedFloat} {q : ℚ} (h : IsRounded u q) :
    amount? (Float.Model.pack u).unpack = inRange? (rounded q) := by
  rw [Binary64.amount?_unpack_pack h.canonical, h.amount, Option.bind_some]

/-! ### Negation -/

/-- Whatever is unpacked has its digits where the format has them. -/
theorem canonical_unpack (x : Float.Model) : Canonical x.unpack ∧ Fits x.unpack := by
  have hfraction : (@unpackMantissa .binary64 x.toBits.toBitVec).toNat < 2 ^ 52 :=
    (@unpackMantissa .binary64 x.toBits.toBitVec).isLt
  have hexponent : (@unpackExponent .binary64 x.toBits.toBitVec).toNat < 2 ^ 11 :=
    (@unpackExponent .binary64 x.toBits.toBitVec).isLt
  rw [Float.Model.unpack, UnpackedFloat.unpack]
  split_ifs with hlast hzero hfirst hzero
  · exact ⟨trivial, trivial⟩
  · exact ⟨trivial, trivial⟩
  · exact ⟨trivial, trivial⟩
  · rw [hfirst]
    exact ⟨⟨by omega, by decide, .inl rfl⟩, (by decide : (-1074 : ℤ) ≤ 971)⟩
  · have hlow : (@unpackExponent .binary64 x.toBits.toBitVec).toNat ≠ 0 :=
      fun h => hfirst (BitVec.eq_of_toNat_eq h)
    have hhigh : (@unpackExponent .binary64 x.toBits.toBitVec).toNat ≠ 2047 :=
      fun h => hlast (BitVec.eq_of_toNat_eq h)
    have hleading := toNat_leading (@unpackMantissa .binary64 x.toBits.toBitVec)
    generalize @unpackExponent .binary64 x.toBits.toBitVec = exponent at *
    refine ⟨⟨?_, ?_, .inr ?_⟩, ?_⟩
    · exact hleading.trans_lt (by omega)
    · change -1074 ≤ (exponent.toNat : ℤ) - (1023 + 52)
      omega
    · exact (Nat.le_add_right _ _).trans_eq hleading.symm
    · change (exponent.toNat : ℤ) - (1023 + 52) ≤ 971
      omega

theorem apply_neg (sign : Sign) (m : ℕ) : (-sign).apply m = -sign.apply m := by
  cases sign
  · exact (neg_neg (m : ℤ)).symm
  · rfl

theorem amount?_neg (u : UnpackedFloat) : amount? u.neg = (amount? u).map (- ·) := by
  cases u with
  | notANumber => rfl
  | infinity sign => rfl
  | zero sign => simp [UnpackedFloat.neg, amount?]
  | finite sign m e hm =>
    rw [UnpackedFloat.neg, amount?, amount?, apply_neg, Option.map_some, Int.cast_neg, neg_mul]

theorem rational?_decode_neg (x : Float) :
    (decode (-x)).rational? = (decode x).rational?.map (- ·) := by
  obtain ⟨hcanonical, hfits⟩ := canonical_unpack x.toModel
  have hneg : Canonical x.toModel.unpack.neg ∧ Fits x.toModel.unpack.neg := by
    cases h : x.toModel.unpack <;> rw [h] at hcanonical hfits <;> exact ⟨hcanonical, hfits⟩
  rw [rational?_decode, rational?_decode, ← amount?_neg]
  exact congrArg amount? (unpack_pack hneg.1 hneg.2)

/-! ### Whole part -/

/-- The number with its fraction dropped. -/
def towardZero (v : ℚ) : ℤ := if v < 0 then ⌈v⌉ else ⌊v⌋

/-- A magnitude as a quotient of whole numbers. -/
theorem mul_two_zpow (m : ℕ) (e : ℤ) :
    (m : ℚ) * 2 ^ e = (m * 2 ^ e.toNat : ℕ) / (2 ^ (-e).toNat : ℕ) := by
  have hsplit : e = (e.toNat : ℤ) - (-e).toNat := by omega
  conv_lhs => rw [hsplit, zpow_sub₀ two_ne_zero, zpow_natCast, zpow_natCast]
  push_cast
  rw [mul_div_assoc]

theorem whole_eq (m : ℕ) (e : ℤ) : (whole m e : ℤ) = ⌊(m : ℚ) * 2 ^ e⌋ := by
  rw [mul_two_zpow, Rat.floor_natCast_div_natCast]
  rfl

theorem truncate_eq (b : Binary64) : b.truncate = b.rational?.map towardZero := by
  cases b with
  | nan => rfl
  | infinity negative => rfl
  | finite negative m e =>
    have hnonneg : 0 ≤ (m : ℚ) * 2 ^ e := mul_nonneg (Nat.cast_nonneg m) (two_zpow_pos e).le
    rw [truncate, rational?, Option.map_some, whole_eq, towardZero]
    cases negative
    · simp only [Bool.false_eq_true, if_false, Int.cast_natCast, if_neg (not_lt.2 hnonneg)]
    · simp only [if_true, Int.cast_neg, Int.cast_natCast, neg_mul]
      split_ifs with hneg
      · rw [Int.ceil_neg]
      · rw [show (m : ℚ) * 2 ^ e = 0 by linarith, neg_zero, Int.floor_zero, neg_zero]

end ArmRover.Binary64
