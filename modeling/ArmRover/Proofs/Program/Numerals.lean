import ArmRover.Text.Numeral
import ArmRover.Proofs.Program.Recognition
import ArmRover.Proofs.Decimal.Scientific

/-!
# Numerals

How a finite number can be written: a sign, digits of any script before and after a point, and an
exponent, with underscores between digits. A text is read as such a number exactly if it is one,
and the number of the machine that it stands for is the nearest one.

* `Text.Numeral.Joined`, `Text.Numeral.joinDigits_eq_some_iff` — underscores.
* `Text.Numeral.Sign`, `Text.Numeral.Power`, `Text.Numeral.Decimal` — the parts of a number, with
  the characters that write them.
* `Text.Numeral.read?_eq_decimal_iff` — what is read.
* `Text.Numeral.Writes`, `Text.Numeral.writes_iff` — the numbers of the machine.
-/

namespace ArmRover.Text.Numeral

open Program

/-! ### Underscores -/

/-- Every underscore stands between two digits. The flag says whether there is a digit before the
text. -/
def Joined (afterDigit : Bool) (cs : List Char) : Prop :=
  ∀ front back, cs = front ++ '_' :: back →
    front.getLast?.elim afterDigit isDigit = true ∧ back.head?.any isDigit = true

theorem joined_nil (afterDigit : Bool) : Joined afterDigit [] := by
  intro front back h
  simp at h

theorem elim_getLast?_cons (afterDigit : Bool) (c : Char) (front : List Char) :
    (c :: front).getLast?.elim afterDigit isDigit = front.getLast?.elim (isDigit c) isDigit := by
  cases front with
  | nil => rfl
  | cons d front =>
    rw [List.getLast?_cons_cons, List.getLast?_cons, Option.elim_some, Option.elim_some]

theorem joined_cons {afterDigit : Bool} {c : Char} {rest : List Char} :
    Joined afterDigit (c :: rest) ↔
      (c = '_' → afterDigit = true ∧ rest.head?.any isDigit = true) ∧ Joined (isDigit c) rest := by
  constructor
  · intro h
    constructor
    · rintro rfl
      exact h [] rest rfl
    · intro front back hrest
      rw [← elim_getLast?_cons afterDigit]
      exact h (c :: front) back (congrArg (c :: ·) hrest)
  · rintro ⟨hhead, hrest⟩ front back heq
    cases front with
    | nil =>
      obtain ⟨rfl, rfl⟩ := List.cons.inj heq
      exact hhead rfl
    | cons d front =>
      obtain ⟨rfl, rfl⟩ := List.cons.inj heq
      rw [elim_getLast?_cons]
      exact hrest front back rfl

/-- Joining the digits removes the underscores, which have to stand between two of them. -/
theorem joinDigits_eq_some_iff {afterDigit : Bool} {cs ds : List Char} :
    joinDigits afterDigit cs = some ds ↔ Joined afterDigit cs ∧ cs.filter (· ≠ '_') = ds := by
  fun_induction joinDigits afterDigit cs generalizing ds with
  | case1 afterDigit => simp [joined_nil]
  | case2 => simp [joined_cons]
  | case3 afterDigit c rest hdigit ih =>
    -- What stands before the digit does not matter to what follows it.
    rw [Bool.and_eq_true] at hdigit
    have hne : c ≠ '_' := by
      rintro rfl
      exact absurd hdigit.2 (by decide)
    have hsame : Joined afterDigit ('_' :: c :: rest) ↔ Joined afterDigit (c :: rest) := by
      simp [joined_cons, hne, hdigit]
    rw [ih, hsame]
    simp
  | case4 afterDigit c rest hdigit =>
    rw [Bool.and_eq_true] at hdigit
    have hnot : ¬Joined afterDigit ('_' :: c :: rest) := by
      rw [joined_cons]
      exact fun h => hdigit (h.1 rfl)
    simp [hnot]
  | case5 afterDigit c rest hlast hmore ih =>
    have hne : c ≠ '_' := by
      rintro rfl
      cases rest with
      | nil => exact hlast rfl rfl
      | cons d rest => exact hmore d rest rfl rfl
    have hkept : (c :: rest).filter (· ≠ '_') = c :: rest.filter (· ≠ '_') :=
      List.filter_cons_of_pos (by simpa using hne)
    rw [Option.map_eq_some_iff, joined_cons, hkept]
    constructor
    · rintro ⟨ds, h, rfl⟩
      obtain ⟨hjoined, rfl⟩ := ih.1 h
      exact ⟨⟨fun h => absurd h hne, hjoined⟩, rfl⟩
    · rintro ⟨⟨-, hjoined⟩, rfl⟩
      exact ⟨_, ih.2 ⟨hjoined, rfl⟩, rfl⟩

/-! ### Parts of a number -/

/-- The ways to write a sign. -/
inductive Sign where
  | none | plus | minus

/-- The characters of a sign. -/
def Sign.written : Sign → List Char
  | none => []
  | plus => ['+']
  | minus => ['-']

/-- Whether the sign negates. -/
def Sign.negative : Sign → Bool
  | minus => true
  | _ => false

/-- A decimal exponent in its parts. -/
structure Power where
  mark : Char
  sign : Sign
  digits : List Char

namespace Power

/-- The mark is an `e` of either case, and there is a digit. -/
def WellFormed (p : Power) : Prop := (p.mark = 'e' ∨ p.mark = 'E') ∧ Digits p.digits

/-- The characters of an exponent. -/
def written (p : Power) : List Char := p.mark :: p.sign.written ++ p.digits

/-- The exponent that is written. -/
def value (p : Power) : ℤ :=
  if p.sign.negative then -(natOfDigits p.digits 0 : ℤ) else natOfDigits p.digits 0

end Power

/-- A decimal number in its parts. -/
structure Decimal where
  sign : Sign
  whole : List Char
  /-- The digits after the point, if there is a point. -/
  part : Option (List Char)
  power : Option Power

namespace Decimal

/-- The digits after the point. -/
def fraction (l : Decimal) : List Char := l.part.getD []

/-- There are digits before the point or after it, and the exponent is one. -/
structure WellFormed (l : Decimal) : Prop where
  digits : Digits (l.whole ++ l.fraction)
  power : ∀ p ∈ l.power, p.WellFormed

/-- The characters after the sign: `digits?(.digits?)?([eE][+-]?digits)?`. -/
def unsigned (l : Decimal) : List Char :=
  l.whole ++ (l.part.elim [] ('.' :: ·) ++ l.power.elim [] Power.written)

/-- The characters of a number. -/
def written (l : Decimal) : List Char := l.sign.written ++ l.unsigned

/-- The number that is written, as it stands. -/
def number (l : Decimal) : ℚ :=
  (if l.sign.negative then -1 else 1) * natOfDigits (l.whole ++ l.fraction) 0 *
    10 ^ (l.power.elim 0 Power.value - l.fraction.length)

/-- The digits and the exponent put together. -/
def numeral (l : Decimal) : Numeral :=
  .decimal l.sign.negative (natOfDigits (l.whole ++ l.fraction) 0)
    (l.power.elim 0 Power.value - l.fraction.length)

theorem number?_numeral (l : Decimal) : l.numeral.number? = some l.number := by
  rw [numeral, number?, number]
  cases l.sign.negative
  · rw [if_neg Bool.false_ne_true, if_neg Bool.false_ne_true, one_mul, Int.cast_natCast]
  · rw [if_pos rfl, if_pos rfl, neg_one_mul, Int.cast_neg, Int.cast_natCast]

end Decimal

theorem natOfDigits_append (cs ds : List Char) (start : ℕ) :
    natOfDigits (cs ++ ds) start = natOfDigits ds (natOfDigits cs start) :=
  List.foldl_append

theorem sign_written {s : Sign} {rest : List Char} (h : ∀ c ∈ rest.head?, c ≠ '-' ∧ c ≠ '+') :
    sign (s.written ++ rest) = (s.negative, rest) := by
  cases s with
  | none =>
    rw [Sign.written, List.nil_append]
    unfold sign
    split
    · exact absurd rfl (h '-' rfl).1
    · exact absurd rfl (h '+' rfl).2
    · rfl
  | plus => rfl
  | minus => rfl

theorem exists_of_sign {cs rest : List Char} {negative : Bool} (h : sign cs = (negative, rest)) :
    ∃ s : Sign, s.negative = negative ∧ cs = s.written ++ rest := by
  unfold sign at h
  split at h <;> cases h
  · exact ⟨.minus, rfl, rfl⟩
  · exact ⟨.plus, rfl, rfl⟩
  · exact ⟨.none, rfl, rfl⟩

/-- No digit is a sign. -/
theorem head_digits {ds : List Char} (h : ∀ c ∈ ds, isDigit c = true) :
    ∀ c ∈ ds.head?, c ≠ '-' ∧ c ≠ '+' := by
  intro c hc
  have hdigit := h c (List.mem_of_mem_head? hc)
  constructor <;> (rintro rfl; exact absurd hdigit (by decide))

/-- Every way to write an exponent is read. -/
theorem exponent?_written {power : Option Power} (h : ∀ p ∈ power, p.WellFormed) :
    exponent? (power.elim [] Power.written) = some (power.elim 0 Power.value) := by
  cases power with
  | none => rfl
  | some p =>
    obtain ⟨hmark, hne, hdigits⟩ := h p rfl
    have hall : (!p.digits.isEmpty && p.digits.all isDigit) = true := by
      simpa [hne] using hdigits
    rw [Option.elim_some, Option.elim_some, Power.written, List.cons_append, exponent?,
      if_pos hmark, sign_written (head_digits hdigits)]
    exact if_pos hall

/-- Nothing else is read as an exponent. -/
theorem exists_of_exponent? {cs : List Char} {e : ℤ} (h : exponent? cs = some e) :
    ∃ power : Option Power, (∀ p ∈ power, p.WellFormed) ∧ cs = power.elim [] Power.written ∧
      e = power.elim 0 Power.value := by
  cases cs with
  | nil => exact ⟨none, by simp, rfl, (Option.some.inj h).symm⟩
  | cons mark rest =>
    rw [exponent?] at h
    split_ifs at h with hmark
    rcases hsign : sign rest with ⟨negative, ds⟩
    obtain ⟨s, rfl, rfl⟩ := exists_of_sign hsign
    simp only [hsign] at h
    split at h
    case isFalse => cases h
    next hall =>
    have hdigits : Digits ds := by simpa [Digits, List.all_eq_true] using hall
    refine ⟨some ⟨mark, s, ds⟩, ?_, rfl, (Option.some.inj h).symm⟩
    rintro p ⟨⟩
    exact ⟨hmark, hdigits⟩

/-! ### Numbers -/

/-- A digit has no other case. -/
theorem toLower_of_isDigit {c : Char} (h : isDigit c = true) : c.toLower = c := by
  unfold Char.toLower
  rw [dif_neg]
  rintro ⟨hlow, hhigh⟩
  have hlow : 0x41 ≤ c.toNat := hlow
  have hhigh : c.toNat ≤ 0x5A := hhigh
  rw [isDigit, digit?, if_pos (by omega), if_neg] at h
  · exact absurd h (by decide)
  · simp only [Bool.and_eq_true, decide_eq_true_eq]
    omega

/-- A text that begins with a digit or a point is no word. -/
theorem not_word {cs : List Char} (h : ∀ c ∈ cs.head?, isDigit c = true ∨ c = '.') :
    String.ofList (cs.map Char.toLower) ≠ "inf" ∧ String.ofList (cs.map Char.toLower) ≠ "infinity" ∧
      String.ofList (cs.map Char.toLower) ≠ "nan" := by
  have hletter {w : Char} {word : List Char} (hdigit : isDigit w = false) (hpoint : w ≠ '.') :
      String.ofList (cs.map Char.toLower) ≠ String.ofList (w :: word) := by
    intro heq
    rw [String.ofList_inj] at heq
    cases cs with
    | nil => cases heq
    | cons c cs =>
      obtain ⟨rfl, -⟩ := List.cons.inj heq
      rcases h c rfl with hc | rfl
      · rw [toLower_of_isDigit hc, hc] at hdigit
        cases hdigit
      · exact hpoint rfl
  exact ⟨hletter (by decide) (by decide), hletter (by decide) (by decide),
    hletter (by decide) (by decide)⟩

theorem head_power {power : Option Power} (h : ∀ p ∈ power, p.WellFormed) :
    ∀ c ∈ (power.elim [] Power.written).head?, isDigit c = false ∧ c ≠ '.' := by
  cases power with
  | none =>
    intro c hc
    cases hc
  | some p =>
    rintro c ⟨⟩
    rcases (h p rfl).1 with hmark | hmark <;> (rw [hmark]; exact ⟨by decide, by decide⟩)

theorem fraction_written {l : Decimal} {rest : List Char}
    (hpart : ∀ c ∈ l.fraction, isDigit c = true)
    (hrest : ∀ c ∈ rest.head?, isDigit c = false ∧ c ≠ '.') :
    fraction (l.part.elim [] ('.' :: ·) ++ rest) = (l.fraction, rest) := by
  unfold Decimal.fraction at *
  generalize l.part = part at *
  cases part with
  | none =>
    rw [Option.elim_none, List.nil_append]
    unfold fraction
    split
    · exact absurd rfl (hrest '.' rfl).2
    · rfl
  | some ds =>
    have hend : ∀ c ∈ rest.head?, isDigit c = false := fun c hc => (hrest c hc).1
    exact Prod.ext (takeWhile_run hpart hend) (dropWhile_run hpart hend)

theorem exists_of_fraction {cs ds rest : List Char} (h : fraction cs = (ds, rest)) :
    ∃ part : Option (List Char), part.getD [] = ds ∧ cs = part.elim [] ('.' :: ·) ++ rest ∧
      ∀ c ∈ ds, isDigit c = true := by
  unfold fraction at h
  split at h <;> cases h
  · next cs =>
    refine ⟨some (cs.takeWhile isDigit), rfl, ?_, fun c hc => List.mem_takeWhile_imp hc⟩
    rw [Option.elim_some, List.cons_append, List.takeWhile_append_dropWhile]
  · exact ⟨none, rfl, rfl, by simp⟩

theorem head_unsigned {l : Decimal} (h : l.WellFormed) :
    ∀ c ∈ l.unsigned.head?, isDigit c = true ∨ c = '.' := by
  obtain ⟨⟨hne, hdigits⟩, -⟩ := h
  intro c hc
  unfold Decimal.unsigned at hc
  unfold Decimal.fraction at hne
  cases hw : l.whole with
  | cons d whole =>
    rw [hw] at hc
    cases hc
    exact .inl (hdigits _ (List.mem_append_left _ (by rw [hw]; exact List.mem_cons_self)))
  | nil =>
    rw [hw] at hc hne
    cases hp : l.part with
    | none =>
      rw [hp] at hne
      exact absurd rfl hne
    | some ds =>
      rw [hp] at hc
      cases hc
      exact .inr rfl

/-- Every way to write a number is read. -/
theorem unsigned?_unsigned {l : Decimal} (h : l.WellFormed) :
    unsigned? l.sign.negative l.unsigned = some l.numeral := by
  obtain ⟨hinf, hinfinity, hnan⟩ := not_word (head_unsigned h)
  obtain ⟨⟨hne, hdigits⟩, hpower⟩ := h
  have hwhole : ∀ c ∈ l.whole, isDigit c = true :=
    fun c hc => hdigits c (List.mem_append_left _ hc)
  have hfraction : ∀ c ∈ l.fraction, isDigit c = true :=
    fun c hc => hdigits c (List.mem_append_right _ hc)
  have hend := head_power hpower
  have hpoint : ∀ c ∈ (l.part.elim [] ('.' :: ·) ++ l.power.elim [] Power.written).head?,
      isDigit c = false := by
    cases l.part with
    | none => exact fun c hc => (hend c hc).1
    | some ds =>
      rintro c ⟨⟩
      decide
  have hsome : ¬(l.whole.isEmpty && l.fraction.isEmpty) = true := by
    rw [Bool.and_eq_true, List.isEmpty_iff, List.isEmpty_iff, ← List.append_eq_nil_iff]
    exact hne
  unfold Decimal.unsigned at *
  simp only [unsigned?, hinf, hinfinity, hnan, or_self, if_false, takeWhile_run hwhole hpoint,
    dropWhile_run hwhole hpoint, fraction_written hfraction hend, hsome,
    exponent?_written hpower, Option.map_some, Decimal.numeral, natOfDigits_append,
    Bool.false_eq_true]

/-- Nothing else is read as a decimal number. -/
theorem exists_of_unsigned? {cs : List Char} {s : Sign} {digits : ℕ} {e : ℤ} {negative : Bool}
    (h : unsigned? s.negative cs = some (.decimal negative digits e)) :
    ∃ l : Decimal, l.WellFormed ∧ s.written ++ cs = l.written ∧
      l.numeral = .decimal negative digits e := by
  rcases hsplit : fraction (cs.dropWhile isDigit) with ⟨ds, rest⟩
  obtain ⟨part, rfl, hrest, hpart⟩ := exists_of_fraction hsplit
  simp only [unsigned?, hsplit] at h
  -- The words and what has no digits are no decimal numbers.
  split at h
  · cases h
  split at h
  · cases h
  split at h
  · cases h
  next hsome =>
  obtain ⟨e', hexponent, heq⟩ := Option.map_eq_some_iff.1 h
  obtain ⟨power, hpower, rfl, rfl⟩ := exists_of_exponent? hexponent
  refine ⟨⟨s, cs.takeWhile isDigit, part, power⟩, ⟨⟨?_, ?_⟩, hpower⟩, ?_, ?_⟩
  · rw [Bool.and_eq_true, List.isEmpty_iff, List.isEmpty_iff, ← List.append_eq_nil_iff] at hsome
    exact hsome
  · intro c hc
    rcases List.mem_append.1 hc with hc | hc
    · exact List.mem_takeWhile_imp hc
    · exact hpart c hc
  · rw [Decimal.written, Decimal.unsigned, ← hrest, List.takeWhile_append_dropWhile]
  · rw [← heq, Decimal.numeral, natOfDigits_append]
    rfl

/-- The texts that are read as a decimal number are the ways to write it, with underscores between
digits. -/
theorem read?_eq_decimal_iff {cs : List Char} {negative : Bool} {digits : ℕ} {e : ℤ} :
    read? cs = some (.decimal negative digits e) ↔
      Joined false cs ∧ ∃ l : Decimal, l.WellFormed ∧ cs.filter (· ≠ '_') = l.written ∧
        l.numeral = .decimal negative digits e := by
  rw [read?, Option.bind_eq_some_iff]
  constructor
  · rintro ⟨ds, hjoin, h⟩
    obtain ⟨hjoined, hplain⟩ := joinDigits_eq_some_iff.1 hjoin
    rcases hsign : sign ds with ⟨minus, rest⟩
    obtain ⟨s, rfl, rfl⟩ := exists_of_sign hsign
    rw [hsign] at h
    obtain ⟨l, hl, hwritten, hnumeral⟩ := exists_of_unsigned? h
    exact ⟨hjoined, l, hl, hplain.trans hwritten, hnumeral⟩
  · rintro ⟨hjoined, l, hl, hplain, hnumeral⟩
    refine ⟨l.written, joinDigits_eq_some_iff.2 ⟨hjoined, hplain⟩, ?_⟩
    have hstart : ∀ c ∈ l.unsigned.head?, c ≠ '-' ∧ c ≠ '+' := by
      intro c hc
      rcases head_unsigned hl c hc with hdigit | rfl
      · constructor <;> (rintro rfl; exact absurd hdigit (by decide))
      · decide
    rw [Decimal.written, sign_written hstart, ← hnumeral]
    exact unsigned?_unsigned hl

/-! ### Numbers of the machine -/

/-- The text is a numeral, and `v` is the number of the machine nearest to what it writes. -/
def Writes (text : List Char) (v : ℚ) : Prop :=
  Joined false text ∧ ∃ l : Decimal, l.WellFormed ∧ text.filter (· ≠ '_') = l.written ∧
    Binary64.rounded l.number = v ∧ |v| < 2 ^ (1024 : ℤ)

/-- What is read from a text is a finite number exactly if the text writes it. -/
theorem writes_iff {text : List Char} {v : ℚ} :
    Writes text v ↔ ∃ numeral, read? text = some numeral ∧
      (Binary64.decode numeral.value).rational? = some v := by
  constructor
  · rintro ⟨hjoined, l, hl, hwritten, hrounded⟩
    refine ⟨l.numeral, read?_eq_decimal_iff.2 ⟨hjoined, l, hl, hwritten, rfl⟩, ?_⟩
    rw [rational?_value, l.number?_numeral, Option.bind_some, Function.comp_apply,
      Binary64.inRange?_eq_some]
    exact hrounded
  · rintro ⟨numeral, hread, hvalue⟩
    rw [rational?_value] at hvalue
    cases numeral with
    | decimal negative digits e =>
      obtain ⟨hjoined, l, hl, hwritten, hnumeral⟩ := read?_eq_decimal_iff.1 hread
      rw [← hnumeral, l.number?_numeral, Option.bind_some, Function.comp_apply,
        Binary64.inRange?_eq_some] at hvalue
      exact ⟨hjoined, l, hl, hwritten, hvalue⟩
    | infinity negative => cases hvalue
    | nan => cases hvalue

/-- A text with another mark in front is no numeral. -/
theorem not_writes_cons {c : Char} {cs : List Char} {v : ℚ} (hdigit : isDigit c = false)
    (hmark : c ∉ ['+', '-', '.', '_']) : ¬Writes (c :: cs) v := by
  rintro ⟨-, l, hl, hwritten, -⟩
  rw [List.mem_cons, List.mem_cons, List.mem_cons, List.mem_singleton] at hmark
  push Not at hmark
  obtain ⟨hplus, hminus, hpoint, hunderscore⟩ := hmark
  rw [List.filter_cons_of_pos (by simpa using hunderscore), Decimal.written] at hwritten
  rcases hsign : l.sign with _ | _ | _ <;> rw [hsign] at hwritten
  · have hhead := head_unsigned hl c (by rw [← List.nil_append l.unsigned]; exact hwritten ▸ rfl)
    rcases hhead with h | h
    · exact absurd h (by rw [hdigit]; exact Bool.false_ne_true)
    · exact hpoint h
  · exact hplus (List.cons.inj hwritten).1
  · exact hminus (List.cons.inj hwritten).1

end ArmRover.Text.Numeral
