import ArmRover.Value.Basic
import ArmRover.Decimal.Fixed
import ArmRover.Decimal.Shortest
import ArmRover.Text.Printable

/-!
# Plain data in messages

How a number, and any other value that is named in a message, is written.

* `Number.text` — `10`, `0.5`, `1e+20`.
* `Text.quoted` — text in quotes.
* `Value.shown` — the value alone, `Value.inner` — the value inside a list or a mapping, where
  text stands in quotes.
-/

namespace ArmRover

/-- The number as messages write it: a whole one by its digits, any other by the fewest digits
that read back. -/
def Number.text : Number Float → String
  | whole n => toString n
  | real x => Decimal.shortest Decimal.plain x

/-- The hexadecimal digits of a number, padded with zeros to at least `width`. -/
def Text.hexadecimal (width n : Nat) : List Char :=
  let digits := Nat.toDigits 16 n
  List.replicate (width - digits.length) '0' ++ digits

/-- A character inside quotes `q`. One that is not printable is written by its code. -/
def Text.escaped (q c : Char) : List Char :=
  if c = '\\' ∨ c = q then ['\\', c]
  else if c = '\n' then ['\\', 'n']
  else if c = '\r' then ['\\', 'r']
  else if c = '\t' then ['\\', 't']
  else if isPrintable c then [c]
  else if c.toNat < 0x100 then '\\' :: 'x' :: hexadecimal 2 c.toNat
  else if c.toNat < 0x10000 then '\\' :: 'u' :: hexadecimal 4 c.toNat
  else '\\' :: 'U' :: hexadecimal 8 c.toNat

/-- Text in single quotes, or in double quotes if it holds a single quote and no double one. -/
def Text.quoted (s : String) : String :=
  let cs := s.toList
  let q := if cs.contains '\'' && !cs.contains '"' then '"' else '\''
  String.ofList (q :: cs.flatMap (escaped q) ++ [q])

namespace Value

mutual

/-- The value as it stands inside a list or a mapping. -/
def inner : Value Float → String
  | null => "None"
  | bool b => if b then "True" else "False"
  | number n => n.text
  | text s => Text.quoted s
  | list items => "[" ++ ", ".intercalate (innerItems items) ++ "]"
  | map fields => "\x7b" ++ ", ".intercalate (innerFields fields) ++ "\x7d"

/-- The items of a list. -/
def innerItems : List (Value Float) → List String
  | [] => []
  | v :: rest => inner v :: innerItems rest

/-- The entries of a mapping. -/
def innerFields : List (String × Value Float) → List String
  | [] => []
  | (k, v) :: rest => (Text.quoted k ++ ": " ++ inner v) :: innerFields rest

end

/-- The value alone: text without quotes, anything else as inside a list. -/
def shown : Value Float → String
  | text s => s
  | v => v.inner

end Value

end ArmRover
