import ArmRover.Value.Basic
import ArmRover.Scalar.Binary64
import ArmRover.Text.Numeral

/-!
# Reading plain data

Plain data is written as JSON, and the words `NaN`, `Infinity` and `-Infinity` are numbers too.
Numbers without point and exponent are whole; all others are the nearest binary numbers. Where a
mapping names a key twice, the last entry counts.

* `Value.read?` — the value that a text holds, if it holds one.
-/

namespace ArmRover.Value

/-- The blanks between the tokens. -/
def skip (cs : List Char) : List Char :=
  cs.dropWhile fun c => c = ' ' || c = '\n' || c = '\r' || c = '\t'

/-- The value of a hexadecimal digit. -/
def hexDigit? (c : Char) : Option Nat :=
  if '0' ≤ c ∧ c ≤ '9' then some (c.toNat - '0'.toNat)
  else if 'a' ≤ c ∧ c ≤ 'f' then some (c.toNat - 'a'.toNat + 10)
  else if 'A' ≤ c ∧ c ≤ 'F' then some (c.toNat - 'A'.toNat + 10)
  else none

/-- The 16-bit unit that four hexadecimal digits write. -/
def unit? : List Char → Option (Nat × List Char)
  | a :: b :: c :: d :: rest => do
    let a ← hexDigit? a
    let b ← hexDigit? b
    let c ← hexDigit? c
    let d ← hexDigit? d
    return (((a * 16 + b) * 16 + c) * 16 + d, rest)
  | _ => none

/-- The character of an escape by code, after the mark. Two units of a pair make one character,
and a unit of a broken pair becomes the replacement character. -/
def codeEscape? (cs : List Char) : Option (Char × List Char) := do
  let (high, rest) ← unit? cs
  if 0xD800 ≤ high ∧ high < 0xDC00 then
    match rest with
    | '\\' :: 'u' :: more =>
      let (low, after) ← unit? more
      if 0xDC00 ≤ low ∧ low < 0xE000 then
        return (Char.ofNat (0x10000 + (high - 0xD800) * 0x400 + (low - 0xDC00)), after)
      else return ('\uFFFD', rest)
    | _ => return ('\uFFFD', rest)
  else if 0xDC00 ≤ high ∧ high < 0xE000 then return ('\uFFFD', rest)
  else return (Char.ofNat high, rest)

/-- The character of a one-letter escape. -/
def letterEscape? : Char → Option Char
  | '"' => some '"'
  | '\\' => some '\\'
  | '/' => some '/'
  | 'b' => some '\x08'
  | 'f' => some '\x0C'
  | 'n' => some '\n'
  | 'r' => some '\r'
  | 't' => some '\t'
  | _ => none

/-- The text up to the closing quote, given the characters read so far in reverse. -/
def quoted? : Nat → List Char → List Char → Option (String × List Char)
  | 0, _, _ => none
  | _, _, [] => none
  | _, read, '"' :: rest => some (String.ofList read.reverse, rest)
  | fuel + 1, read, '\\' :: 'u' :: rest => do
    let (c, rest) ← codeEscape? rest
    quoted? fuel (c :: read) rest
  | fuel + 1, read, '\\' :: c :: rest => do
    let c ← letterEscape? c
    quoted? fuel (c :: read) rest
  | fuel + 1, read, c :: rest => quoted? fuel (c :: read) rest

/-- Whether the character can be part of a number. -/
def inNumber (c : Char) : Bool := c.isDigit || c = '-' || c = '+' || c = '.' || c = 'e' || c = 'E'

/-- The number that a whole token writes. -/
def numberOf? (token : List Char) : Option (Number Float) :=
  (Text.Numeral.read? token).map fun numeral =>
    match numeral, token.all fun c => c.isDigit || c = '-' with
    | .decimal negative digits _, true => .whole (if negative then -digits else digits)
    | _, _ => .real numeral.value

/-- The text after a given word. -/
def after? : List Char → List Char → Option (List Char)
  | [], cs => some cs
  | w :: word, c :: cs => if w = c then after? word cs else none
  | _ :: _, [] => none

/-- The word for infinity, after its first letter. -/
def infinity : List Char := ['n', 'f', 'i', 'n', 'i', 't', 'y']

mutual

/-- A value at the start of the text, and the rest. -/
def value? : Nat → List Char → Option (Value Float × List Char)
  | 0, _ => none
  | fuel + 1, cs =>
    match skip cs with
    | '\x7b' :: rest =>
      match skip rest with
      | '\x7d' :: rest => some (.map [], rest)
      | _ => fields? fuel [] rest
    | '[' :: rest =>
      match skip rest with
      | ']' :: rest => some (.list [], rest)
      | _ => items? fuel [] rest
    | '"' :: rest => (quoted? (rest.length + 1) [] rest).map fun (s, rest) => (.text s, rest)
    | 'n' :: rest => (after? ['u', 'l', 'l'] rest).map (.null, ·)
    | 't' :: rest => (after? ['r', 'u', 'e'] rest).map (.bool true, ·)
    | 'f' :: rest => (after? ['a', 'l', 's', 'e'] rest).map (.bool false, ·)
    | 'N' :: rest => (after? ['a', 'N'] rest).map (.real (0 / 0), ·)
    | 'I' :: rest => (after? infinity rest).map (.real (1 / 0), ·)
    | '-' :: 'I' :: rest => (after? infinity rest).map (.real (-1 / 0), ·)
    | cs =>
      (numberOf? (cs.takeWhile inNumber)).map fun n => (.number n, cs.dropWhile inNumber)

/-- The items of a list up to its bracket, after those read so far in reverse. -/
def items? : Nat → List (Value Float) → List Char → Option (Value Float × List Char)
  | 0, _, _ => none
  | fuel + 1, read, cs => do
    let (v, rest) ← value? fuel cs
    match skip rest with
    | ',' :: rest => items? fuel (v :: read) rest
    | ']' :: rest => return (.list (v :: read).reverse, rest)
    | _ => none

/-- The entries of a mapping up to its brace, after those read so far. -/
def fields? : Nat → Fields (Value Float) → List Char → Option (Value Float × List Char)
  | 0, _, _ => none
  | fuel + 1, read, cs => do
    let '"' :: rest := skip cs | none
    let (key, rest) ← quoted? (rest.length + 1) [] rest
    let ':' :: rest := skip rest | none
    let (v, rest) ← value? fuel rest
    let read := read.put key v
    match skip rest with
    | ',' :: rest => fields? fuel read rest
    | '\x7d' :: rest => return (.map read, rest)
    | _ => none

end

/-- The value that the whole text writes. -/
def read? (s : String) : Option (Value Float) := do
  let cs := s.toList
  let (v, rest) ← value? (2 * cs.length + 2) cs
  if (skip rest).isEmpty then return v else none

end ArmRover.Value
