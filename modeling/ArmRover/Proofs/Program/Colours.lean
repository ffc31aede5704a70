import ArmRover.Program.Light
import ArmRover.Proofs.Program.Numerals

/-!
# Colours

A light takes a number as the six digits of its colour and anything else as it stands, and in both
cases drops the blanks around it. Which of the two it is depends on the text alone, and a colour
that a light has taken is taken again as it is.

* `Trimmed`, `trimmed_trim`, `Trimmed.trim_eq` — a token and what is between its blanks.
* `Shows`, `shows_hexColor` — the digits of a number.
* `lightColor_of_writes`, `lightColor_of_not_writes` — the two kinds of tokens.
* `lightColor_normal_form` — all tokens.
-/

namespace ArmRover.Program

open Text.Numeral Binary64

/-! ### Ends of a word -/

/-- There is no blank at the ends of the text. -/
structure Stripped (cs : List Char) : Prop where
  head : ∀ c ∈ cs.head?, Text.isBlank c = false
  last : ∀ c ∈ cs.getLast?, Text.isBlank c = false

/-- The token is `core`, with blanks around it. -/
def Trimmed (token core : List Char) : Prop :=
  Stripped core ∧ ∃ left right, Blanks left ∧ Blanks right ∧ token = left ++ core ++ right

theorem head_dropBlanks (cs : List Char) :
    ∀ c ∈ (Text.dropBlanks cs).head?, Text.isBlank c = false := by
  intro c hc
  have := List.head?_dropWhile_not Text.isBlank cs
  rw [Text.dropBlanks] at hc
  rw [hc] at this
  simpa using this

theorem Blanks.reverse {gap : List Char} (h : Blanks gap) : Blanks gap.reverse :=
  fun c hc => h c (List.mem_reverse.1 hc)

theorem trimmed_trim (token : List Char) : Trimmed token (Text.trim token) := by
  obtain ⟨left, hleft, htoken⟩ := exists_gap token
  obtain ⟨right, hright, hrest⟩ := exists_gap (Text.dropBlanks token).reverse
  have hcore : Text.dropBlanks token = Text.trim token ++ right.reverse := by
    rw [Text.trim, ← List.reverse_append, ← hrest, List.reverse_reverse]
  refine ⟨⟨?_, ?_⟩, left, right.reverse, hleft, hright.reverse, ?_⟩
  · intro c hc
    apply head_dropBlanks token
    rw [hcore, List.head?_append, Option.mem_def.1 hc]
    rfl
  · intro c hc
    rw [Text.trim, List.getLast?_reverse] at hc
    exact head_dropBlanks _ c hc
  · rw [List.append_assoc, ← hcore]
    exact htoken

/-- Blanks around a text are all that is trimmed. -/
theorem Trimmed.trim_eq {token core : List Char} (h : Trimmed token core) :
    Text.trim token = core := by
  obtain ⟨⟨hhead, hlast⟩, left, right, hleft, hright, rfl⟩ := h
  rw [Text.trim, List.append_assoc]
  cases core with
  | nil =>
    have hall : Blanks (left ++ right) := by
      intro c hc
      rcases List.mem_append.1 hc with hc | hc
      · exact hleft c hc
      · exact hright c hc
    have hnone : Text.dropBlanks (left ++ right) = [] := List.dropWhile_eq_nil_iff.2 hall
    rw [List.nil_append, hnone]
    rfl
  | cons c core =>
    have hfront : Text.dropBlanks (left ++ (c :: core ++ right)) = c :: core ++ right :=
      dropBlanks_gap hleft hhead
    rw [hfront, List.reverse_append,
      dropBlanks_gap hright.reverse (by rwa [List.head?_reverse]), List.reverse_reverse]

theorem trim_eq_self {cs : List Char} (h : Stripped cs) : Text.trim cs = cs :=
  Trimmed.trim_eq ⟨h, [], [], by simp [Blanks], by simp [Blanks], by simp⟩

/-! ### Digits of a colour -/

/-- The digits of a colour, in increasing order of value. -/
def hexDigits : List Char :=
  ['0', '1', '2', '3', '4', '5', '6', '7', '8', '9', 'a', 'b', 'c', 'd', 'e', 'f']

/-- The number that the digits of a colour write. -/
def hexValue (ds : List Char) : ℕ := ds.foldl (fun n c => 16 * n + hexDigits.idxOf c) 0

/-- The colour is `#` with six digits that write `n`. -/
def Shows (color : List Char) (n : ℤ) : Prop :=
  ∃ ds, color = '#' :: ds ∧ ds.length = 6 ∧ (∀ c ∈ ds, c ∈ hexDigits) ∧ hexValue ds = n

theorem digitChar_mem : ∀ d < 16, Nat.digitChar d ∈ hexDigits ∧
    hexDigits.idxOf (Nat.digitChar d) = d := by
  decide

theorem mem_toDigits (n : ℕ) : ∀ c ∈ Nat.toDigits 16 n, c ∈ hexDigits := by
  induction n using Nat.strongRecOn with
  | ind n ih =>
    intro c hc
    rcases Nat.lt_or_ge n 16 with hsmall | hlarge
    · rw [Nat.toDigits_of_lt_base hsmall, List.mem_singleton] at hc
      exact hc ▸ (digitChar_mem n hsmall).1
    · rw [Nat.toDigits_of_base_le (by decide) hlarge, List.mem_append, List.mem_singleton] at hc
      rcases hc with hc | rfl
      · exact ih (n / 16) (by omega) c hc
      · exact (digitChar_mem _ (Nat.mod_lt n (by decide))).1

theorem hexValue_toDigits (n : ℕ) : hexValue (Nat.toDigits 16 n) = n := by
  induction n using Nat.strongRecOn with
  | ind n ih =>
    rcases Nat.lt_or_ge n 16 with hsmall | hlarge
    · rw [Nat.toDigits_of_lt_base hsmall]
      exact (Nat.zero_add _).trans (digitChar_mem n hsmall).2
    · have hdigit := (digitChar_mem _ (Nat.mod_lt n (by decide))).2
      have hfront := ih (n / 16) (by omega)
      rw [hexValue] at hfront ⊢
      rw [Nat.toDigits_of_base_le (by decide) hlarge, List.foldl_append, hfront, List.foldl_cons,
        List.foldl_nil, hdigit, Nat.div_add_mod]

theorem hexValue_zeros (k : ℕ) (ds : List Char) :
    hexValue (List.replicate k '0' ++ ds) = hexValue ds := by
  have hzero : hexDigits.idxOf '0' = 0 := by decide
  induction k with
  | zero => rfl
  | succ k ih =>
    rw [List.replicate_succ, List.cons_append, ← ih, hexValue, List.foldl_cons, hzero]
    rfl

/-- The digits of a number, limited to 24 bits. -/
theorem shows_hexColor (n : ℤ) : Shows (hexColor n) (min (max n 0) 0xFFFFFF) := by
  unfold hexColor
  extract_lets digits
  have hlength : digits.length ≤ 6 := by
    rw [Nat.length_toDigits_le_iff (by decide) (by decide), maxColor]
    omega
  refine ⟨_, rfl, ?_, ?_, ?_⟩
  · rw [List.length_append, List.length_replicate]
    omega
  · intro c hc
    rcases List.mem_append.1 hc with hc | hc
    · rw [List.eq_of_mem_replicate hc]
      decide
    · exact mem_toDigits _ c hc
  · rw [hexValue_zeros, hexValue_toDigits, maxColor]
    omega

theorem Shows.stripped {color : List Char} {n : ℤ} (h : Shows color n) : Stripped color := by
  obtain ⟨ds, rfl, hlength, hdigits, -⟩ := h
  have hnone : ∀ c ∈ hexDigits, Text.isBlank c = false := by
    have hall : hexDigits.all (fun c => !Text.isBlank c) = true := by decide
    simpa using hall
  constructor
  · rintro c ⟨⟩
    decide
  · intro c hc
    cases ds with
    | nil => cases hlength
    | cons d ds =>
      rw [List.getLast?_cons_cons] at hc
      exact hnone c (hdigits c (List.mem_of_getLast? hc))

/-! ### Colours -/

/-- A number, with blanks around it, is turned into its digits. -/
theorem lightColor_of_writes {token : List Char} {v : ℚ} (h : Writes (Text.trim token) v) :
    lightColor token = hexColor (towardZero v) := by
  obtain ⟨numeral, hread, hvalue⟩ := writes_iff.1 h
  have htruncate : (decode numeral.value).truncate = some (towardZero v) := by
    rw [truncate_eq, hvalue, Option.map_some]
  unfold lightColor
  simp only [hread, htruncate]

/-- Anything else only loses the blanks around it. -/
theorem lightColor_of_not_writes {token : List Char} (h : ∀ v, ¬Writes (Text.trim token) v) :
    lightColor token = Text.trim token := by
  unfold lightColor
  extract_lets word
  cases hread : read? word with
  | none => rfl
  | some numeral =>
    cases htruncate : (decode numeral.value).truncate with
    | none =>
      simp only [htruncate]
      rfl
    | some n =>
      rw [truncate_eq, Option.map_eq_some_iff] at htruncate
      obtain ⟨v, hvalue, -⟩ := htruncate
      exact absurd (writes_iff.2 ⟨numeral, hread, hvalue⟩) (h v)

theorem lightColor_hexColor (n : ℤ) : lightColor (hexColor n) = hexColor n := by
  have hstripped := trim_eq_self (shows_hexColor n).stripped
  have hnot (v : ℚ) : ¬Writes (Text.trim (hexColor n)) v := by
    rw [hstripped]
    exact not_writes_cons (by decide) (by decide)
  rw [lightColor_of_not_writes hnot, hstripped]

theorem lightColor_lightColor (token : List Char) :
    lightColor (lightColor token) = lightColor token := by
  by_cases h : ∃ v, Writes (Text.trim token) v
  -- The digits of a number begin with a mark that no numeral has.
  · obtain ⟨v, hv⟩ := h
    rw [lightColor_of_writes hv, lightColor_hexColor]
  · have hnot := not_exists.1 h
    have hsame := trim_eq_self (trimmed_trim token).1
    rw [lightColor_of_not_writes hnot, lightColor_of_not_writes (by rwa [hsame]), hsame]

theorem towardZero_mono {v w : ℚ} (h : v ≤ w) : towardZero v ≤ towardZero w := by
  unfold towardZero
  split_ifs with hv hw hw
  · exact Int.ceil_mono h
  · exact (Int.ceil_le.2 (by exact_mod_cast hv.le)).trans (Int.floor_nonneg.2 (not_lt.1 hw))
  · linarith
  · exact Int.floor_mono h

/-- Every token has a text between its blanks. If it writes a finite number, the colour is the
digits of the number, without its fraction and limited to 24 bits; otherwise the colour is the text
itself. Colours do not change any more, and those of numbers are in their order. -/
theorem lightColor_normal_form :
    (∀ token, ∃ core, Trimmed token core) ∧
    (∀ token core, Trimmed token core →
      (∀ v, Writes core v → Shows (lightColor token) (min (max (towardZero v) 0) 0xFFFFFF)) ∧
      ((∀ v, ¬Writes core v) → lightColor token = core)) ∧
    (∀ token, lightColor (lightColor token) = lightColor token) ∧
    (∀ token core token' core' v v', Trimmed token core → Trimmed token' core' →
      Writes core v → Writes core' v' → v ≤ v' →
      ∃ n n', Shows (lightColor token) n ∧ Shows (lightColor token') n' ∧ n ≤ n') := by
  refine ⟨fun token => ⟨_, trimmed_trim token⟩,
    fun token core hcore => ⟨fun v hv => ?_, fun h => ?_⟩, lightColor_lightColor,
    fun token core token' core' v v' hcore hcore' hv hv' hle => ?_⟩
  · rw [← hcore.trim_eq] at hv
    rw [lightColor_of_writes hv]
    exact shows_hexColor _
  · rw [← hcore.trim_eq] at h ⊢
    exact lightColor_of_not_writes h
  · rw [← hcore.trim_eq] at hv
    rw [← hcore'.trim_eq] at hv'
    rw [lightColor_of_writes hv, lightColor_of_writes hv']
    have := towardZero_mono hle
    exact ⟨_, _, shows_hexColor _, shows_hexColor _, by omega⟩

/-- A number with blanks, an underscore and an exponent. -/
theorem lightColor_normal_form_hundred :
    Trimmed " 1_0e1 ".toList "1_0e1".toList ∧ Writes "1_0e1".toList 100 ∧
      Shows (lightColor " 1_0e1 ".toList) 100 := by
  have htrim : Trimmed " 1_0e1 ".toList "1_0e1".toList := trimmed_trim " 1_0e1 ".toList
  have hwrites : Writes "1_0e1".toList 100 := by
    refine writes_iff.2 ⟨.decimal false 10 1, by decide, ?_⟩
    have hsame : rounded ((100 : ℤ) * 2 ^ (0 : ℤ)) = (100 : ℤ) * 2 ^ (0 : ℤ) :=
      rounded_eq_self (by decide) (by decide)
    have hnumber : (decimal false 10 1).number? = some ((100 : ℤ) * 2 ^ (0 : ℤ) : ℚ) := by
      norm_num [Text.Numeral.number?]
    have hbelow : |((100 : ℤ) : ℚ) * 2 ^ (0 : ℤ)| < 2 ^ (7 : ℤ) := by norm_num
    rw [rational?_value, hnumber, Option.bind_some, Function.comp_apply, hsame,
      inRange?_of_lt hbelow (by decide)]
    norm_num
  have hshows := (lightColor_normal_form.2.1 _ _ htrim).1 100 hwrites
  have hwhole : min (max (towardZero 100) 0) 0xFFFFFF = 100 := by
    norm_num [towardZero]
  rw [hwhole] at hshows
  exact ⟨htrim, hwrites, hshows⟩

end ArmRover.Program
