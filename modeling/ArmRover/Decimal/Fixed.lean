import ArmRover.Decimal.Binary

/-!
# Decimal text with a fixed number of places

`Decimal.fixed` rounds the exact value of a binary number to so many places and writes every
digit of the result. Rounding is to nearest; a tie goes to the even last digit.

* `roundDiv` — a quotient of naturals rounded to nearest.
* `fixed` — the text of a number.
-/

namespace ArmRover.Decimal

-- Whole powers are the core library's, whatever algebra is imported.
attribute [local instance (high)] instPowNat

/-- The natural number nearest to `num / den`; a half goes to the even neighbour. -/
def roundDiv (num den : Nat) : Nat :=
  let q := num / den
  let r := num % den
  if 2 * r < den then q
  else if den < 2 * r then q + 1
  else if q % 2 = 0 then q
  else q + 1

/-- The decimal digits of a number, padded with zeros on the left to at least `width`. -/
def padded (width n : Nat) : String :=
  let digits := Nat.toDigits 10 n
  String.ofList (List.replicate (width - digits.length) '0' ++ digits)

/-- `n / 10 ^ places` in positional notation, with exactly `places` digits after the point. -/
def pointed (places n : Nat) : String :=
  if places = 0 then toString n
  else s!"{n / 10 ^ places}." ++ padded places (n % 10 ^ places)

/-- The number with `places` decimals, as in `1.50`, `-0.25`, `inf` or `nan`. The sign of a
negative zero is written. -/
def fixed (places : Nat) (x : Float) : String :=
  match Binary64.decode x with
  | .nan => "nan"
  | .infinity negative => if negative then "-inf" else "inf"
  | .finite negative mantissa exponent =>
    let (num, den) := Binary64.ratio mantissa exponent
    (if negative then "-" else "") ++ pointed places (roundDiv (num * 10 ^ places) den)

/-- Rounding is off by at most half a unit. -/
theorem roundDiv_near (num : Nat) {den : Nat} (h : 0 < den) :
    2 * (roundDiv num den * den) ≤ 2 * num + den ∧
      2 * num ≤ 2 * (roundDiv num den * den) + den := by
  have parts := Nat.div_add_mod num den
  have small := Nat.mod_lt num h
  rw [Nat.mul_comm den] at parts
  unfold roundDiv
  simp only
  split
  · constructor <;> omega
  split
  · rw [Nat.add_mul]; constructor <;> omega
  split
  · constructor <;> omega
  · rw [Nat.add_mul]; constructor <;> omega

/-- A whole quotient is kept. -/
theorem roundDiv_mul {den : Nat} (n : Nat) (h : 0 < den) : roundDiv (n * den) den = n := by
  simp [roundDiv, h]

end ArmRover.Decimal
