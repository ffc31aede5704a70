import ArmRover.Proofs.Program.Occurrences

/-!
# Word arguments

The one kind of call with an argument that is no number. Its argument is a word in quotes, or a bare
one up to the parenthesis, and a word can hold almost everything, also what looks like another call.

* `Plain` — the characters of words, `Quoted`, `Bare` — the two ways to write the call.
* `recognise_quoted`, `exists_of_recognise_setLight` — its recognition.
* `Enclosed` — what the calls of all kinds have in common: one closing parenthesis, at the end.
-/

namespace ArmRover.Program

/-! ### Words -/

/-- A pair of equal quotes can stand around a word. -/
def Quote (c : Char) : Prop := c = '"' ∨ c = '\''

/-- A run of characters that a word can hold: no quotes, no commas and no closing parentheses. -/
def Plain (cs : List Char) : Prop := ∀ c ∈ cs, ¬ Quote c ∧ c ≠ ',' ∧ c ≠ ')'

/-- The text is a way to write the call with a word in quotes. -/
def Quoted (word text : List Char) : Prop :=
  word ≠ [] ∧ Plain word ∧ ∃ gap left right q, Blanks gap ∧ Blanks left ∧ Blanks right ∧ Quote q ∧
    text = Call.Kind.setLight.name ++ gap ++ '(' :: (left ++ q :: word ++ q :: right) ++ [')']

/-- The text is a way to write the call with a bare word. The blanks before it can be its only
characters. -/
def Bare (word text : List Char) : Prop :=
  Plain word ∧ ∃ gap left, Blanks gap ∧ Blanks left ∧
    text = Call.Kind.setLight.name ++ gap ++ '(' :: (left ++ word) ++ [')']

theorem Quote.isBlank {q : Char} (h : Quote q) : Text.isBlank q = false := by
  rcases h with rfl | rfl <;> decide

theorem Quote.ne_closing {q : Char} (h : Quote q) : q ≠ ')' := by
  rcases h with rfl | rfl <;> decide

/-- The test by which the reader finds the end of a word. -/
theorem inWord_iff {c : Char} :
    (c != '"' && c != '\'' && c != ',' && c != ')') = true ↔ ¬ Quote c ∧ c ≠ ',' ∧ c ≠ ')' := by
  simp [Quote, and_assoc]

theorem plain_takeWhile (cs : List Char) :
    Plain (cs.takeWhile fun c => c != '"' && c != '\'' && c != ',' && c != ')') := by
  intro c hc
  have hp := List.mem_takeWhile_imp (p := fun c => c != '"' && c != '\'' && c != ',' && c != ')') hc
  exact inWord_iff.mp hp

/-! ### The argument -/

theorem word?_quoted {left word : List Char} {q : Char} (hleft : Blanks left) (hq : Quote q)
    (hword : Plain word) (hne : word ≠ []) (rest : List Char) :
    word? (left ++ q :: (word ++ q :: rest)) = some (word, rest) := by
  have hhead : ∀ c ∈ (q :: (word ++ q :: rest)).head?, Text.isBlank c = false := by
    rintro c ⟨⟩
    exact hq.isBlank
  have hrun : ∀ c ∈ word, (c != '"' && c != '\'' && c != ',' && c != ')') = true :=
    fun c hc => inWord_iff.mpr (hword c hc)
  have hend : ∀ c ∈ (q :: rest).head?,
      (c != '"' && c != '\'' && c != ',' && c != ')') = false := by
    rintro c ⟨⟩
    rcases hq with rfl | rfl <;> rfl
  have hquote : q = '"' ∨ q = '\'' := hq
  simp only [word?, dropWhile_run hleft hhead, takeWhile_run hrun hend, dropWhile_run hrun hend]
  simp [hquote, hne]

/-- A word that is read is one in quotes, or it is bare and goes on as long as it can. -/
theorem exists_of_word? {cs word rest : List Char} (h : word? cs = some (word, rest)) :
    Plain word ∧ ∃ left, Blanks left ∧
      ((word ≠ [] ∧ ∃ q, Quote q ∧ cs = left ++ q :: word ++ q :: rest) ∨
        cs = left ++ word ++ rest ∧ ∀ c ∈ rest.head?, Quote c ∨ c = ',' ∨ c = ')') := by
  have hcs := (List.takeWhile_append_dropWhile (p := Text.isBlank) (l := cs)).symm
  have hleft : Blanks (cs.takeWhile Text.isBlank) := fun _ hc => List.mem_takeWhile_imp hc
  unfold word? at h
  dsimp only at h
  split at h
  · cases h
  next c inner hinner =>
  rw [hinner] at hcs
  split at h
  · next hquote =>
    have hsplit := (List.takeWhile_append_dropWhile
      (p := fun c => c != '"' && c != '\'' && c != ',' && c != ')') (l := inner)).symm
    split at h
    · next q after hafter =>
      split at h
      · next hsame =>
        cases h
        obtain ⟨rfl, hne⟩ := hsame
        rw [hafter] at hsplit
        refine ⟨plain_takeWhile inner, _, hleft, .inl ⟨hne, q, hquote, ?_⟩⟩
        rw [List.append_assoc, List.cons_append, ← hsplit]
        exact hcs
      · cases h
    · cases h
  · split at h
    · cases h
    · cases h
      refine ⟨plain_takeWhile _, _, hleft, .inr ⟨?_, fun d hd => ?_⟩⟩
      · rw [List.append_assoc, List.takeWhile_append_dropWhile]
        exact hcs
      · have hend := List.head?_dropWhile_not
          (fun c => c != '"' && c != '\'' && c != ',' && c != ')') (c :: inner)
        rw [hd] at hend
        by_contra hplain
        rw [not_or, not_or] at hplain
        have hin := inWord_iff.mpr hplain
        exact Bool.false_ne_true (hend.symm.trans hin)

/-! ### The call -/

theorem recognise_quoted {word text : List Char} (h : Quoted word text) (rest : List Char) :
    Call.Kind.setLight.recognise (text ++ rest) = some (.setLight word, rest) := by
  obtain ⟨hne, hword, gap, left, right, q, hgap, hleft, hright, hq, rfl⟩ := h
  have hname : afterWord? Call.Kind.setLight.name (Call.Kind.setLight.name ++ gap ++
      '(' :: (left ++ q :: word ++ q :: right) ++ [')'] ++ rest) =
      some (gap ++ '(' :: (left ++ q :: (word ++ q :: (right ++ ')' :: rest)))) :=
    afterWord?_eq_some_iff.mpr (by simp)
  simp only [Call.Kind.recognise, Call.Kind.arguments?, bind, pure]
  rw [hname]
  dsimp only [Option.bind]
  rw [afterMark?_gap (by decide) hgap]
  dsimp only
  rw [word?_quoted hleft hq hword hne]
  dsimp only
  rw [afterMark?_gap (by decide) hright]

theorem exists_of_recognise_setLight {cs rest : List Char} {call : Call}
    (h : Call.Kind.setLight.recognise cs = some (call, rest)) :
    ∃ word text, call = .setLight word ∧ (Quoted word text ∨ Bare word text) ∧
      cs = text ++ rest := by
  simp only [Call.Kind.recognise, Call.Kind.arguments?, bind, Option.bind_eq_some_iff, pure] at h
  obtain ⟨named, hname, opened, hopen, _, ⟨⟨word, worded⟩, hword, heq⟩, closed, hclose, hcall⟩ := h
  cases heq
  cases hcall
  obtain ⟨gap, hgap, rfl⟩ := exists_of_afterMark? hopen
  obtain ⟨right, hright, rfl⟩ := exists_of_afterMark? hclose
  obtain ⟨hplain, left, hleft, ⟨hne, q, hq, rfl⟩ | ⟨rfl, hend⟩⟩ := exists_of_word? hword
  · refine ⟨word, _, rfl, .inl ⟨hne, hplain, gap, left, right, q, hgap, hleft, hright, hq, rfl⟩, ?_⟩
    rw [afterWord?_eq_some_iff.mp hname]
    simp
  · -- a bare word takes the blanks behind it
    have hnone : right = [] := by
      cases right with
      | nil => rfl
      | cons b right =>
        have hblank := hright b List.mem_cons_self
        rcases hend b rfl with hq | rfl | rfl
        · rw [hq.isBlank] at hblank
          cases hblank
        · exact absurd hblank (by decide)
        · exact absurd hblank (by decide)
    subst hnone
    refine ⟨word, _, rfl, .inr ⟨hplain, gap, left, hgap, hleft, rfl⟩, ?_⟩
    rw [afterWord?_eq_some_iff.mp hname]
    simp

/-! ### Calls of all kinds -/

/-- The text of a call is a name, and something in parentheses. Only the last character closes. -/
def Enclosed (k : Call.Kind) (inside text : List Char) : Prop :=
  ')' ∉ inside ∧ ∃ gap, Blanks gap ∧ text = k.name ++ gap ++ '(' :: inside ++ [')']

theorem Call.Written.exists_enclosed {call : Call} {text : List Char} (h : call.Written text) :
    ∃ inside, Listed call.literals inside ∧ Enclosed call.kind inside text := by
  obtain ⟨hcall, gap, inside, hgap, hinside, rfl⟩ := h
  exact ⟨inside, hinside, hinside.not_mem (by decide) hcall.literals, gap, hgap, rfl⟩

theorem Plain.closing_not_mem {word : List Char} (h : Plain word) : ')' ∉ word :=
  fun hmem => (h _ hmem).2.2 rfl

theorem Blanks.closing_not_mem {gap : List Char} (h : Blanks gap) : ')' ∉ gap :=
  h.not_mem (by decide)

theorem Quoted.enclosed {word text : List Char} (h : Quoted word text) :
    ∃ left right q, Blanks left ∧ Blanks right ∧ Quote q ∧
      Enclosed .setLight (left ++ q :: word ++ q :: right) text := by
  obtain ⟨-, hword, gap, left, right, q, hgap, hleft, hright, hq, rfl⟩ := h
  refine ⟨left, right, q, hleft, hright, hq, ?_, gap, hgap, rfl⟩
  simp [hleft.closing_not_mem, hright.closing_not_mem, hword.closing_not_mem, hq.ne_closing.symm]

theorem Bare.enclosed {word text : List Char} (h : Bare word text) :
    ∃ left, Blanks left ∧ Enclosed .setLight (left ++ word) text := by
  obtain ⟨hword, gap, left, hgap, hleft, rfl⟩ := h
  refine ⟨left, hleft, ?_, gap, hgap, rfl⟩
  simp [hleft.closing_not_mem, hword.closing_not_mem]

/-- What is recognised, of whatever kind, has its only closing parenthesis at its end. -/
theorem exists_enclosed_of_recognise {k : Call.Kind} {cs rest : List Char} {call : Call}
    (h : k.recognise cs = some (call, rest)) :
    ∃ inside text, Enclosed k inside text ∧ cs = text ++ rest := by
  by_cases hk : k = .setLight
  · subst hk
    obtain ⟨word, text, -, hquoted | hbare, rfl⟩ := exists_of_recognise_setLight h
    · obtain ⟨left, right, q, -, -, -, henclosed⟩ := hquoted.enclosed
      exact ⟨_, text, henclosed, rfl⟩
    · obtain ⟨left, -, henclosed⟩ := hbare.enclosed
      exact ⟨_, text, henclosed, rfl⟩
  · obtain ⟨rfl, text, htext, rfl⟩ := (Call.Kind.recognise_eq_some_iff hk).mp h
    obtain ⟨inside, -, henclosed⟩ := htext.exists_enclosed
    exact ⟨inside, text, henclosed, rfl⟩

/-- A name ends where a blank or a parenthesis stands. -/
theorem Enclosed.takeWhile_name {k : Call.Kind} {inside text : List Char}
    (h : Enclosed k inside text) (rest : List Char) :
    (text ++ rest).takeWhile (fun c => !Text.isBlank c && c != '(') = k.name := by
  obtain ⟨-, gap, hgap, rfl⟩ := h
  have hname : ∀ c ∈ k.name, (!Text.isBlank c && c != '(') = true :=
    List.all_eq_true.mp (by cases k <;> rfl)
  have hend : ∀ c ∈ (gap ++ '(' :: (inside ++ ')' :: rest)).head?,
      (!Text.isBlank c && c != '(') = false := by
    intro c hc
    cases gap with
    | nil =>
      cases hc
      rfl
    | cons b gap =>
      cases hc
      rw [hgap c List.mem_cons_self]
      rfl
  simpa using takeWhile_run hname hend

/-- A text starts with calls of one kind only. -/
theorem kind_eq_of_recognise {k k' : Call.Kind} {cs rest rest' : List Char} {call call' : Call}
    (h : k.recognise cs = some (call, rest)) (h' : k'.recognise cs = some (call', rest')) :
    k = k' := by
  obtain ⟨inside, text, henclosed, rfl⟩ := exists_enclosed_of_recognise h
  obtain ⟨inside', text', henclosed', htext⟩ := exists_enclosed_of_recognise h'
  have hnames : k.name = k'.name := by
    rw [← henclosed.takeWhile_name rest, htext, henclosed'.takeWhile_name rest']
  revert hnames
  cases k <;> cases k' <;> decide

end ArmRover.Program
