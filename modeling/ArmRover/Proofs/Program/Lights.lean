import ArmRover.Proofs.Program.Colours
import ArmRover.Proofs.Program.Spans

/-!
# Lights

What the commands for the light carry. A call whose parentheses hold nothing, or quotes with nothing
between them, gives no command. Blanks count as a word, though, bare ones as well as those in
quotes, and as they are taken off afterwards such a call gives a command with an empty colour. All
other colours have characters, and all colours are as clean as words: no quotes, no commas, no
closing parentheses, no blanks at their ends.

* `Presentable`, `presentable_lightColor` — the colours of words.
* `lightColor_eq_nil_iff` — the words without a colour.
* `recognise_of_nothing`, `exists_body_of_mem_found` — the calls.
* `lights_presentable` — the commands of a text.
-/

namespace ArmRover.Program

/-! ### Colours of words -/

/-- A colour as a light has it: it could stand as a word, without blanks around it, and is taken
again as it is. -/
structure Presentable (colour : List Char) : Prop where
  plain : Plain colour
  stripped : Stripped colour
  settled : lightColor colour = colour

/-- The digits of a number and the mark before them can stand in a word. -/
theorem Shows.plain {color : List Char} {n : ℤ} (h : Shows color n) : Plain color := by
  obtain ⟨ds, rfl, -, hdigits, -⟩ := h
  have hall : ('#' :: hexDigits).all
      (fun c => c != '"' && c != '\'' && c != ',' && c != ')') = true := rfl
  intro c hc
  refine inWord_iff.mp (List.all_eq_true.mp hall c ?_)
  rcases List.mem_cons.mp hc with rfl | hc
  · exact List.mem_cons_self
  · exact List.mem_cons_of_mem _ (hdigits c hc)

theorem Plain.trim {word : List Char} (h : Plain word) : Plain (Text.trim word) := by
  obtain ⟨-, left, right, -, -, hword⟩ := trimmed_trim word
  intro c hc
  apply h
  rw [hword]
  exact List.mem_append_left _ (List.mem_append_right _ hc)

/-- The colour of a word is that of a number, or the word without the blanks around it. -/
theorem lightColor_eq (word : List Char) :
    (∃ n, lightColor word = hexColor n) ∨ lightColor word = Text.trim word := by
  by_cases h : ∃ v, Text.Numeral.Writes (Text.trim word) v
  · obtain ⟨v, hv⟩ := h
    exact .inl ⟨_, lightColor_of_writes hv⟩
  · exact .inr (lightColor_of_not_writes (not_exists.mp h))

theorem presentable_lightColor {word : List Char} (h : Plain word) :
    Presentable (lightColor word) := by
  have hsettled := lightColor_lightColor word
  rcases lightColor_eq word with ⟨n, hn⟩ | hn
  · rw [hn] at hsettled ⊢
    exact ⟨(shows_hexColor n).plain, (shows_hexColor n).stripped, hsettled⟩
  · rw [hn] at hsettled ⊢
    exact ⟨h.trim, (trimmed_trim word).1, hsettled⟩

theorem trim_eq_nil_iff {token : List Char} : Text.trim token = [] ↔ Blanks token := by
  constructor
  · intro h
    obtain ⟨-, left, right, hleft, hright, htoken⟩ := trimmed_trim token
    rw [h, List.append_nil] at htoken
    rw [htoken]
    exact List.forall_mem_append.mpr ⟨hleft, hright⟩
  · intro h
    have htrimmed : Trimmed token [] := ⟨⟨nofun, nofun⟩, token, [], h, nofun, by simp⟩
    exact htrimmed.trim_eq

/-- Only blanks have no colour. -/
theorem lightColor_eq_nil_iff {word : List Char} : lightColor word = [] ↔ Blanks word := by
  rw [← trim_eq_nil_iff]
  constructor
  · intro h
    rcases lightColor_eq word with ⟨n, hn⟩ | hn
    · rw [hn] at h
      cases h
    · exact hn.symm.trans h
  · intro h
    unfold lightColor
    rw [h]
    rfl

/-! ### Calls -/

/-- Nothing between the parentheses is no word. -/
theorem recognise_of_nothing {gap : List Char} (hgap : Blanks gap) (rest : List Char) :
    Call.Kind.setLight.recognise (Call.Kind.setLight.name ++ gap ++ ['(', ')'] ++ rest) = none := by
  have hname : afterWord? Call.Kind.setLight.name
      (Call.Kind.setLight.name ++ gap ++ ['(', ')'] ++ rest) =
      some (gap ++ '(' :: (')' :: rest)) :=
    afterWord?_eq_some_iff.mpr (by simp)
  have hword : word? (')' :: rest) = none := rfl
  simp only [Call.Kind.recognise, Call.Kind.arguments?, bind, pure]
  rw [hname]
  dsimp only [Option.bind]
  rw [afterMark?_gap (by decide) hgap]
  dsimp only
  rw [hword]

/-- A call for the light that is found in a text is written there, with something between its
parentheses. -/
theorem exists_body_of_mem_found {cs word : List Char} {f : Found} (hf : f ∈ found cs)
    (hcall : f.call = .setLight word) :
    ∃ body, (Quoted word body ∨ Bare word body) ∧
      (∀ gap, Blanks gap → body ≠ Call.Kind.setLight.name ++ gap ++ ['(', ')']) ∧
      cs.drop f.start = body ++ cs.drop f.stop := by
  obtain ⟨-, hread⟩ := reads_of_mem_found hf
  rw [hcall] at hread
  obtain ⟨word', body, heq, hbody, htext⟩ := exists_of_recognise_setLight hread
  cases heq
  refine ⟨body, hbody, fun gap hgap hnothing => ?_, htext⟩
  have hnone := recognise_of_nothing hgap (cs.drop f.stop)
  rw [← hnothing, ← htext] at hnone
  exact absurd (hread.symm.trans hnone) nofun

theorem plain_of_mem_found {cs word : List Char} {f : Found} (hf : f ∈ found cs)
    (hcall : f.call = .setLight word) : Plain word := by
  obtain ⟨body, hquoted | hbare, -⟩ := exists_body_of_mem_found hf hcall
  · exact hquoted.2.1
  · exact hbare.1

/-! ### The commands of a text -/

section Commands

variable {α : Type} [Scalar α]

theorem Call.exists_word_of_meaning {call : Call} {colour : String}
    (h : call.meaning = some (.setLight colour : Command α)) :
    ∃ word, call = .setLight word ∧ colour.toList = lightColor word := by
  cases call with
  | moveJoint joint angle =>
    simp only [meaning] at h
    split at h <;> cases h
  | setLight word =>
    cases h
    exact ⟨word, rfl, String.toList_ofList⟩
  | _ => cases h

/-- For every text that can be read, in either order: every colour is presentable. There is an
empty one exactly if the text has a call whose word is made of blanks only. The calls for the light
that the text has are written there, in the one way or the other, and with something between their
parentheses. -/
theorem lights_presentable {textOrder : Bool} {text : List Char} {commands : List (Command α)}
    (h : commands? textOrder text = .ok commands) :
    (∀ colour, .setLight colour ∈ commands → Presentable colour.toList) ∧
    (.setLight "" ∈ commands ↔
      ∃ f ∈ found (withoutComments text), ∃ word, f.call = .setLight word ∧ Blanks word) ∧
    ∀ f ∈ found (withoutComments text), ∀ word, f.call = .setLight word →
      ∃ body, (Quoted word body ∨ Bare word body) ∧
        (∀ gap, Blanks gap → body ≠ Call.Kind.setLight.name ++ gap ++ ['(', ')']) ∧
        (withoutComments text).drop f.start = body ++ (withoutComments text).drop f.stop := by
  refine ⟨fun colour hcolour => ?_, ⟨fun hempty => ?_, ?_⟩, fun f hf word hcall =>
    exists_body_of_mem_found hf hcall⟩
  · obtain ⟨f, hf, hmeaning⟩ := (mem_commands?_iff h _).mp hcolour
    obtain ⟨word, hcall, hword⟩ := Call.exists_word_of_meaning hmeaning
    rw [hword]
    exact presentable_lightColor (plain_of_mem_found hf hcall)
  · obtain ⟨f, hf, hmeaning⟩ := (mem_commands?_iff h _).mp hempty
    obtain ⟨word, hcall, hword⟩ := Call.exists_word_of_meaning hmeaning
    exact ⟨f, hf, word, hcall, lightColor_eq_nil_iff.mp hword.symm⟩
  · rintro ⟨f, hf, word, hcall, hblanks⟩
    refine (mem_commands?_iff h _).mpr ⟨f, hf, ?_⟩
    rw [hcall, Call.meaning, lightColor_eq_nil_iff.mpr hblanks]

end Commands

/-- A call with a blank in its parentheses, and one with blanks around its word. -/
theorem lights_presentable_red :
    let text := "robot.setLight( )robot.setLight(' red ')".toList
    ∃ commands : List (Command Float), commands? true text = .ok commands ∧
      .setLight "" ∈ commands ∧ .setLight "red" ∈ commands ∧ Presentable "red".toList := by
  intro text
  have htext : withoutComments text = text := withoutComments_of_not_mem (by decide)
  obtain ⟨commands, hcommands⟩ : ∃ commands : List (Command Float),
      commands? false text = .ok commands := exists_commands? (by decide)
  obtain ⟨emitted, hemitted, -⟩ := Action.bind_eq_ok.mp hcommands
  obtain ⟨ordered, -, hordered⟩ := exists_perm_emitted hemitted true
  have hblank : Call.Kind.setLight.recognise text =
      some (.setLight [], "robot.setLight(' red ')".toList) := rfl
  have hred : Call.Kind.setLight.recognise "robot.setLight(' red ')".toList =
      some (.setLight " red ".toList, []) := rfl
  have hfound : ∀ f ∈ scan .setLight 0 text, f ∈ found (withoutComments text) := by
    intro f hf
    rw [htext]
    exact List.mem_flatMap.mpr ⟨.setLight, by decide, hf⟩
  rw [scan_of_recognise hblank, scan_of_recognise hred, List.forall_mem_cons,
    List.forall_mem_cons] at hfound
  obtain ⟨hcolours, hempty, -⟩ := lights_presentable hordered
  have hmem : .setLight "red" ∈ ordered.map Prod.snd :=
    (mem_commands?_iff hordered _).mpr ⟨_, hfound.2.1, rfl⟩
  exact ⟨_, hordered, hempty.mpr ⟨_, hfound.1, [], rfl, nofun⟩, hmem, hcolours "red" hmem⟩

/-- A call without an argument is not dropped if there is a blank between its parentheses: its
colour is empty. -/
theorem colour_empty_of_blank :
    let text := "robot.setLight( )".toList
    ∃ commands : List (Command Float), commands? false text = .ok commands ∧
      .setLight "" ∈ commands := by
  intro text
  have htext : withoutComments text = text := withoutComments_of_not_mem (by decide)
  obtain ⟨commands, hcommands⟩ : ∃ commands : List (Command Float),
      commands? false text = .ok commands := exists_commands? (by decide)
  have hcall : Call.Kind.setLight.recognise text = some (.setLight [], []) := rfl
  refine ⟨commands, hcommands, (mem_commands?_iff hcommands _).mpr
    ⟨⟨0, 17, .setLight []⟩, ?_, rfl⟩⟩
  rw [htext]
  refine List.mem_flatMap.mpr ⟨.setLight, by decide, ?_⟩
  rw [scan_of_recognise hcall]
  exact List.mem_cons_self

end ArmRover.Program
