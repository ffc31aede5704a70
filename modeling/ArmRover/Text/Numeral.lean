import ArmRover.Text.Digit
import ArmRover.Scalar.Basic
import ArmRover.Text.Blank

/-!
# Numerals

The ways to write a floating-point number: an optional sign, then digits with an optional point
and an optional decimal exponent, or one of the words for infinity and for not-a-number. The
digits are those of any script, and a single underscore may stand between two of them.

* `Numeral` — what was written, `Numeral.read?` — from text without blanks at its ends,
  `Numeral.readSpaced?` — from text with space around it.
* `Numeral.value` — the number that is written.
-/

namespace ArmRover.Text

-- Whole powers are the core library's, whatever algebra is imported.
attribute [local instance (high)] instPowNat

/-- A number as written: `digits * 10 ^ exponent`, or a word. -/
inductive Numeral where
  | decimal (negative : Bool) (digits : Nat) (exponent : Int)
  | infinity (negative : Bool)
  | nan
  deriving DecidableEq, Repr

namespace Numeral

/-- Remove the underscores that stand between two digits. Nothing if one stands elsewhere. -/
def joinDigits (afterDigit : Bool) : List Char → Option (List Char)
  | [] => some []
  | '_' :: [] => none
  | '_' :: c :: rest => if afterDigit && isDigit c then joinDigits afterDigit (c :: rest) else none
  | c :: rest => (joinDigits (isDigit c) rest).map (c :: ·)

/-- The optional sign in front of a number. -/
def sign : List Char → Bool × List Char
  | '-' :: rest => (true, rest)
  | '+' :: rest => (false, rest)
  | cs => (false, cs)

/-- The decimal exponent at the end of a number, 0 when there is none. -/
def exponent? : List Char → Option Int
  | [] => some 0
  | e :: rest =>
    if e = 'e' ∨ e = 'E' then
      let (negative, ds) := sign rest
      if !ds.isEmpty && ds.all isDigit then
        let n : Int := natOfDigits ds 0
        some (if negative then -n else n)
      else none
    else none

/-- The digits after the point, when there is a point, and the rest. -/
def fraction : List Char → List Char × List Char
  | '.' :: rest => (rest.takeWhile isDigit, rest.dropWhile isDigit)
  | cs => ([], cs)

/-- A number without sign and underscores. -/
def unsigned? (negative : Bool) (cs : List Char) : Option Numeral :=
  let word := String.ofList (cs.map Char.toLower)
  if word = "inf" ∨ word = "infinity" then some (.infinity negative)
  else if word = "nan" then some .nan
  else
    let whole := cs.takeWhile isDigit
    let (part, rest) := fraction (cs.dropWhile isDigit)
    if whole.isEmpty && part.isEmpty then none
    else (exponent? rest).map fun e =>
      .decimal negative (natOfDigits part (natOfDigits whole 0)) (e - part.length)

/-- Read a numeral that takes up the whole text. -/
def read? (cs : List Char) : Option Numeral :=
  (joinDigits false cs).bind fun cs =>
    let (negative, rest) := sign cs
    unsigned? negative rest

/-- Whether the character may stand around a numeral: a blank that is no information separator. -/
def isSpace (c : Char) : Bool := isBlank c && !(0x1C ≤ c.toNat && c.toNat ≤ 0x1F)

/-- Read a numeral that may have space around it. -/
def readSpaced? (cs : List Char) : Option Numeral :=
  read? ((cs.dropWhile isSpace).reverse.dropWhile isSpace).reverse

variable [Scalar α]

/-- The magnitude `digits * 10 ^ exponent`. Exponents far outside the range of floating-point
numbers give infinity or zero at once. -/
def magnitude (digits : Nat) (exponent : Int) : α :=
  let size := (Nat.toDigits 10 digits).length + exponent
  if digits = 0 ∨ size < -400 then 0
  else if 400 < size then 1 / 0
  else if exponent < 0 then Scalar.ofDecimal digits exponent.natAbs
  else Scalar.ofInt (digits * 10 ^ exponent.toNat)

/-- The number that is written, rounded to the nearest one of the type. -/
def value : Numeral → α
  | decimal negative digits exponent =>
    let x := magnitude digits exponent
    if negative then -x else x
  | infinity negative => if negative then -1 / 0 else 1 / 0
  | nan => 0 / 0

end Numeral

end ArmRover.Text
