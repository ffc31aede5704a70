import ArmRover.Proofs.Action
import ArmRover.Proofs.Program.Occurrences

/-!
# Texts that can be read

The reader skips what is no call, whatever the text holds. One thing stops it: the number of a
joint is read up to 4300 digits, so a `moveJoint` with a longer one is a call for the recogniser and
none that gives a command. The whole text is lost with it.

* `Call.Legible` — calls whose numbers can be read.
* `emitted?_of_legible`, `emitted?_of_not_legible` — lists of calls.
* `read_iff_legible` — texts.
-/

namespace ArmRover.Program

/-! ### Calls -/

/-- The number of the joint, if the call has one, is not too long to be read. -/
def Call.Legible : Call → Prop
  | moveJoint joint _ => joint.whole.length ≤ 4300
  | _ => True

/-- Calls for the light have no number of a joint. -/
theorem Call.legible_of_setLight {call : Call} (h : call.kind = .setLight) : call.Legible := by
  cases call with
  | setLight word => exact trivial
  | _ => cases h

variable {α : Type} [Scalar α]

theorem Call.command?_of_legible {call : Call} (h : call.Legible) :
    ∃ command : Option (Command α), call.command? = .ok command := by
  cases call with
  | moveJoint joint angle =>
    simp only [command?, Literal.whole?]
    rw [if_neg (Nat.not_lt.mpr h)]
    exact ⟨_, rfl⟩
  | _ => exact ⟨_, rfl⟩

theorem Call.command?_of_not_legible {call : Call} (h : ¬ call.Legible) :
    (call.command? : Except (Fault α) (Option (Command α))) = .error .tooManyDigits := by
  cases call with
  | moveJoint joint angle =>
    simp only [command?, Literal.whole?]
    rw [if_pos (Nat.not_le.mp h)]
    rfl
  | _ => exact absurd trivial h

/-! ### Lists of calls -/

theorem emitted?_of_legible {found : List Found} (h : ∀ f ∈ found, f.call.Legible) :
    ∃ emitted : List (Found × Command α), emitted? found = .ok emitted :=
  exists_emitted? fun f hf => Call.command?_of_legible (h f hf)

/-- One call that cannot be read is enough, whatever the others are. -/
theorem emitted?_of_not_legible {found : List Found} {f : Found} (hf : f ∈ found)
    (h : ¬ f.call.Legible) :
    (emitted? found : Except (Fault α) (List (Found × Command α))) = .error .tooManyDigits := by
  induction found with
  | nil => cases hf
  | cons g rest ih =>
    by_cases hg : g.call.Legible
    · have hrest : f ∈ rest := (List.mem_cons.mp hf).resolve_left (by rintro rfl; exact h hg)
      obtain ⟨command, hcommand⟩ := Call.command?_of_legible (α := α) hg
      simp only [emitted?, bind, Except.bind, hcommand, ih hrest]
    · simp only [emitted?, bind, Except.bind, Call.command?_of_not_legible hg]

/-! ### Texts -/

/-- What is found of the kinds with numbers stands in the text. -/
theorem exists_stands_of_mem_found {cs : List Char} {f : Found} (hf : f ∈ found cs)
    (hlight : f.call.kind ≠ .setLight) : Stands cs f.start f.call := by
  obtain ⟨k, -, hf⟩ := List.mem_flatMap.mp hf
  have hk : k ≠ .setLight := kind_of_mem_scan hf ▸ hlight
  have hplace : (0 + f.start, f.call) ∈ places (scan k 0 cs) := by
    rw [Nat.zero_add]
    exact List.mem_map_of_mem hf
  exact ((mem_places_scan hk 0 cs _ _).mp hplace).2

/-- Only calls of the kinds with numbers stand in a text. -/
theorem Stands.kind_ne {cs : List Char} {place : Nat} {call : Call} (h : Stands cs place call) :
    call.kind ≠ .setLight := by
  obtain ⟨body, ⟨hcall, -⟩, -⟩ := h
  cases call with
  | setLight word => exact hcall.elim
  | _ => exact nofun

/-- What stands in the text is found. -/
theorem exists_mem_found_of_stands {cs : List Char} {place : Nat} {call : Call}
    (h : Stands cs place call) : ∃ f ∈ found cs, f.start = place ∧ f.call = call := by
  have hplace : (0 + place, call) ∈ places (scan call.kind 0 cs) :=
    (mem_places_scan h.kind_ne 0 cs _ _).mpr ⟨rfl, h⟩
  obtain ⟨f, hf, heq⟩ := List.mem_map.mp hplace
  rw [Nat.zero_add] at heq
  refine ⟨f, List.mem_flatMap.mpr ⟨call.kind, ?_, hf⟩, congrArg Prod.fst heq,
    congrArg Prod.snd heq⟩
  cases call.kind <;> decide

theorem commands?_of_legible (textOrder : Bool) {text : List Char}
    (h : ∀ place call, Stands (withoutComments text) place call → call.Legible) :
    ∃ commands : List (Command α), commands? textOrder text = .ok commands := by
  have hfound : ∀ f ∈ found (withoutComments text), f.call.Legible := by
    intro f hf
    by_cases hlight : f.call.kind = .setLight
    · exact Call.legible_of_setLight hlight
    · exact h _ _ (exists_stands_of_mem_found hf hlight)
  obtain ⟨emitted, hemitted⟩ := emitted?_of_legible (α := α) hfound
  simp only [commands?, bind, Except.bind, hemitted]
  exact ⟨_, rfl⟩

theorem commands?_of_not_legible (textOrder : Bool) {text : List Char} {place : Nat} {call : Call}
    (hstands : Stands (withoutComments text) place call) (h : ¬ call.Legible) :
    (commands? textOrder text : Except (Fault α) (List (Command α))) = .error .tooManyDigits := by
  obtain ⟨f, hf, -, rfl⟩ := exists_mem_found_of_stands hstands
  simp only [commands?, bind, Except.bind, emitted?_of_not_legible hf h]

theorem read_of_ok {reader : Reader α} {text : String} {commands : List (Command α)}
    (h : commands? reader.textOrder text.toList = .ok commands) :
    Reader.read text reader = .ok commands { reader with commands } := by
  unfold Reader.read
  rw [Action.run_get_bind, h]
  rfl

theorem read_of_error {reader : Reader α} {text : String} {fault : Fault α}
    (h : commands? reader.textOrder text.toList = .error fault) :
    Reader.read text reader = .error fault reader := by
  unfold Reader.read
  rw [Action.run_get_bind, h]
  rfl

/-- For every text and every reader, in either order: the reader returns a list of commands, and
keeps that list, exactly if each joint number of a `moveJoint` call that stands in the text has at
most 4300 digits. Otherwise it gives up, and keeps the commands that it had. -/
theorem read_iff_legible (reader : Reader α) (text : String) :
    ((∃ commands, Reader.read text reader = .ok commands { reader with commands }) ↔
      ∀ place call, Stands (withoutComments text.toList) place call → call.Legible) ∧
    ((∃ place call, Stands (withoutComments text.toList) place call ∧ ¬ call.Legible) →
      Reader.read text reader = .error .tooManyDigits reader) := by
  have hbad : ∀ place call, Stands (withoutComments text.toList) place call → ¬ call.Legible →
      Reader.read text reader = .error .tooManyDigits reader :=
    fun place call hstands hcall => read_of_error (commands?_of_not_legible _ hstands hcall)
  refine ⟨⟨?_, fun h => ?_⟩, fun ⟨place, call, hstands, hcall⟩ => hbad place call hstands hcall⟩
  · rintro ⟨commands, hok⟩ place call hstands
    by_contra hcall
    rw [hbad place call hstands hcall] at hok
    cases hok
  · obtain ⟨commands, hcommands⟩ := commands?_of_legible (α := α) reader.textOrder h
    exact ⟨commands, read_of_ok hcommands⟩

/-! ### A number that is too long -/

/-- The call `robot.moveJoint(11…1,0)` whose joint number has the given count of digits. -/
def onesJoint (digits : Nat) : List Char :=
  Call.Kind.moveJoint.name ++ '(' :: List.replicate digits '1' ++ [',', '0', ')']

theorem stands_onesJoint {digits : Nat} (h : digits ≠ 0) :
    Stands (onesJoint digits) 0
      (.moveJoint ⟨false, List.replicate digits '1', []⟩ ⟨false, ['0'], []⟩) := by
  have hones : Digits (List.replicate digits '1') :=
    ⟨List.ne_nil_of_length_pos (by rw [List.length_replicate]; omega),
      fun c hc => by rw [List.eq_of_mem_replicate hc]; decide⟩
  have hzero : Digits ['0'] :=
    ⟨nofun, fun c hc => by rw [List.mem_singleton.mp hc]; decide⟩
  have hbody : Listed [⟨false, List.replicate digits '1', []⟩, ⟨false, ['0'], []⟩]
      (List.replicate digits '1' ++ [',', '0']) := by
    have hgap : Blanks [] := nofun
    have hlast : Listed [⟨false, ['0'], []⟩] ['0'] := .last hgap hgap
    have hmore := Listed.more (l := ⟨false, List.replicate digits '1', []⟩) hgap hgap hlast
    simpa [Literal.written] using hmore
  refine ⟨onesJoint digits, ⟨⟨⟨hones, rfl⟩, hzero, .inl rfl⟩, [], _, nofun, hbody, ?_⟩,
    List.prefix_refl _⟩
  simp [onesJoint, Call.kind]

theorem slash_not_mem_onesJoint (digits : Nat) : '/' ∉ onesJoint digits := by
  have hname : '/' ∉ Call.Kind.moveJoint.name := by decide
  have hones : '/' ∉ List.replicate digits '1' :=
    fun h => absurd (List.eq_of_mem_replicate h) (by decide)
  simp [onesJoint, hname, hones]

/-- A `moveJoint` call whose joint number has 4301 digits stops the reader, in either order. -/
theorem not_read_ones : ¬ ∃ (textOrder : Bool) (commands : List (Command Float))
    (reader : Reader Float), Reader.read (String.ofList (onesJoint 4301)) { textOrder } =
      .ok commands reader := by
  rintro ⟨textOrder, commands, reader, hok⟩
  have hstands := stands_onesJoint (Nat.succ_ne_zero 4300)
  rw [← withoutComments_of_not_mem (slash_not_mem_onesJoint 4301)] at hstands
  have hlong : ¬ (List.replicate 4301 '1').length ≤ 4300 := by
    rw [List.length_replicate]
    decide
  have hcommands := commands?_of_not_legible (α := Float) textOrder hstands hlong
  rw [← String.toList_ofList (l := onesJoint 4301)] at hcommands
  have hread : Reader.read (String.ofList (onesJoint 4301)) { textOrder } =
      .error .tooManyDigits { textOrder } := read_of_error hcommands
  rw [hread] at hok
  cases hok

end ArmRover.Program
