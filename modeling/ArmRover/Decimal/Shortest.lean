import ArmRover.Decimal.Binary
import ArmRover.Decimal.Fixed

/-!
# The fewest digits that read back

A binary number is the nearest one to a whole interval of reals. `Decimal.shortest` finds the
shortest decimal in that interval, and among those the nearest to the number.

* `Interval` — the number and the reals that round to it, as naturals over one denominator.
* `digits` — the decimal, as a digit string and the place of its point.
* `Notation` — how a digit string is laid out, and `shortest`, the text of a number.
-/

namespace ArmRover.Decimal

-- Whole powers are the core library's, whatever algebra is imported.
attribute [local instance (high)] instPowNat

/-- A positive number `value / den` with the bounds of the reals that round to it. The bounds
themselves belong to the interval when `closed`. -/
structure Interval where
  value : Nat
  lower : Nat
  upper : Nat
  den : Nat
  closed : Bool

/-- The rounding interval of `mantissa * 2 ^ exponent`. Below a power of two the neighbours lie
half as far apart as above it. -/
def Interval.ofBinary (mantissa : Nat) (exponent : Int) : Interval :=
  let scale := 2 ^ (exponent - 2).toNat
  let below := if mantissa = 2 ^ (52 : Nat) ∧ -1074 < exponent then 1 else 2
  { value := 4 * mantissa * scale
    lower := (4 * mantissa - below) * scale
    upper := (4 * mantissa + 2) * scale
    den := 2 ^ (2 - exponent).toNat
    closed := mantissa % 2 = 0 }

/-- Whether `num / den` rounds to the number. -/
def Interval.contains (i : Interval) (num den : Nat) : Bool :=
  let x := num * i.den
  if i.closed then i.lower * den ≤ x && x ≤ i.upper * den
  else i.lower * den < x && x < i.upper * den

/-- How many zeros follow the point in a positive number below one. -/
def leadingZeros (num den : Nat) : Nat → Nat
  | 0 => 0
  | fuel + 1 => if den ≤ num * 10 then 0 else leadingZeros (num * 10) den fuel + 1

/-- The exponent `k` with `10 ^ (k - 1) ≤ num / den < 10 ^ k`. -/
def decimalExponent (num den : Nat) : Int :=
  if den ≤ num then (Nat.toDigits 10 (num / den)).length
  else -(leadingZeros num den 400 : Int)

/-- The whole number on the grid of `10 ^ place` that rounds back to the number, the nearer one
when both neighbours do. -/
def Interval.onGrid? (i : Interval) (place : Int) : Option Nat :=
  let up := 10 ^ place.toNat
  let down := 10 ^ (-place).toNat
  let num := i.value * down
  let den := i.den * up
  let n := num / den
  let fits (n : Nat) := i.contains (n * up) down
  match fits n, fits (n + 1) with
  | true, true => some (roundDiv num den)
  | true, false => some n
  | false, true => some (n + 1)
  | false, false => none

/-- The first of the grids with `count`, `count + 1`, … significant digits that has a hit. -/
def Interval.search (i : Interval) (exponent : Int) : Nat → Nat → Nat × Int
  | count, 0 => (i.value / i.den, count)
  | count, fuel + 1 =>
    let place := exponent - count
    match i.onGrid? place with
    | some n => (n, place)
    | none => i.search exponent (count + 1) fuel

/-- The shortest digits `n` and place `p` such that `n * 10 ^ p` reads back as the number. -/
def digits (mantissa : Nat) (exponent : Int) : Nat × Int :=
  let i := Interval.ofBinary mantissa exponent
  i.search (decimalExponent i.value i.den) 1 17

/-- A layout for decimal digits. With the point `k` digits after the start of the digit string,
`k` from `positionalFrom` to `positionalTo` is written in positional notation, and any other
number with an exponent of at least `exponentWidth` digits. -/
structure Notation where
  positionalFrom : Int
  positionalTo : Int
  exponentMark : String
  exponentWidth : Nat
  wholeMark : String

/-- Plain numbers in messages: positional from `0.0001` to below `10 ^ 16`, a whole number with
one zero after the point, otherwise as in `1e-05` and `2.5e+20`. -/
def plain : Notation := ⟨-3, 16, "e", 2, ".0"⟩

/-- Lay out the digits `ds`, not all zero, with the point after the first `k`. -/
def Notation.layOut (f : Notation) (ds : List Char) (k : Int) : String :=
  if f.positionalFrom ≤ k ∧ k ≤ f.positionalTo then
    if k ≤ 0 then "0." ++ String.ofList (List.replicate (-k).toNat '0' ++ ds)
    else if ds.length ≤ k.toNat then
      String.ofList (ds ++ List.replicate (k.toNat - ds.length) '0') ++ f.wholeMark
    else String.ofList (ds.take k.toNat) ++ "." ++ String.ofList (ds.drop k.toNat)
  else
    let fraction := if ds.length ≤ 1 then "" else "." ++ String.ofList (ds.drop 1)
    let power := k - 1
    String.ofList (ds.take 1) ++ fraction ++ f.exponentMark ++ (if power < 0 then "-" else "+")
      ++ padded f.exponentWidth power.natAbs

/-- The shortest text that reads back as the number, in the given layout. -/
def shortest (f : Notation) (x : Float) : String :=
  match Binary64.decode x with
  | .nan => "nan"
  | .infinity negative => if negative then "-inf" else "inf"
  | .finite negative mantissa exponent =>
    let sign := if negative then "-" else ""
    if mantissa = 0 then sign ++ "0" ++ f.wholeMark
    else
      let (n, place) := digits mantissa exponent
      let ds := Nat.toDigits 10 n
      let kept := (ds.reverse.dropWhile (· == '0')).reverse
      sign ++ f.layOut kept (place + ds.length)

end ArmRover.Decimal
