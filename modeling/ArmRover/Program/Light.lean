import ArmRover.Scalar.Binary64
import ArmRover.Text.Blank
import ArmRover.Text.Numeral

/-!
# Colours of the light

A light takes a colour by name or by its six hexadecimal digits. A number, written in any of the
ways of `Text.Numeral`, is turned into those digits.

* `hexColor` — the digits of a number.
* `lightColor` — the colour that a word selects.
-/

namespace ArmRover.Program

/-- The largest number of 24 bits. -/
def maxColor : Int := 0xFFFFFF

/-- `#` and the six hexadecimal digits of a number, limited to 24 bits. -/
def hexColor (n : Int) : List Char :=
  let digits := Nat.toDigits 16 (min (max n 0) maxColor).toNat
  '#' :: (List.replicate (6 - digits.length) '0' ++ digits)

/-- The colour of a word: the digits of its whole part if it is a finite number, otherwise the
word as it stands. Blanks around it do not count. -/
def lightColor (word : List Char) : List Char :=
  let word := Text.trim word
  match Text.Numeral.read? word with
  | none => word
  | some numeral =>
    match (Binary64.decode numeral.value).truncate with
    | none => word
    | some n => hexColor n

end ArmRover.Program
