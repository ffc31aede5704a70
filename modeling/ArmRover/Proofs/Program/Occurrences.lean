import ArmRover.Program.Reader
import ArmRover.Proofs.Program.Recognition
import ArmRover.Proofs.Program.Comments

/-!
# Occurrences

The calls that the reader finds in a text are those that stand in it. The search goes on after the
end of each call, and nothing is lost in this way: a call starts with `ro`, and these letters stand
at no other place of a call.

* `Call.Written.no_start`, `Stands.le_of_lt` — no call starts inside another one.
* `mem_places_scan`, `pairwise_places_scan` — the calls of one kind, from left to right.
* `exists_commands?` — texts that can be read, `commands?_occurrences` — their commands.
-/

namespace ArmRover.Program

/-! ### No call starts inside another one -/

theorem Call.WellFormed.literals {call : Call} (h : call.WellFormed) :
    ∀ l ∈ call.literals, l.WellFormed := by
  cases call with
  | moveJoint joint angle =>
    intro l hl
    rcases List.mem_cons.mp hl with rfl | hl
    · exact h.1.wellFormed
    · rcases List.mem_singleton.mp hl with rfl
      exact h.2
  | setLight word => exact h.elim
  | _ => exact h

/-- A character that stands neither in numbers nor around them. -/
def Foreign (c : Char) : Prop :=
  Text.isBlank c = false ∧ Text.isDigit c = false ∧ c ∉ ['-', '.', ',']

instance (c : Char) : Decidable (Foreign c) := inferInstanceAs (Decidable (_ ∧ _))

section Foreign

variable {c : Char} (hc : Foreign c)
include hc

theorem Literal.not_mem_written {l : Literal} (h : l.WellFormed) : c ∉ l.written := by
  have hdigit : ∀ ds : List Char, (∀ d ∈ ds, Text.isDigit d = true) → c ∉ ds :=
    fun ds hds hmem => absurd (hds c hmem) (by rw [hc.2.1]; exact Bool.false_ne_true)
  have hmarks := hc.2.2
  obtain ⟨negative, whole, fraction⟩ := l
  have hwhole := hdigit whole h.1.2
  have hfraction : c ∉ fraction := by
    rcases h.2 with rfl | hsome
    · exact List.not_mem_nil
    · exact hdigit fraction hsome.2
  cases negative <;> cases fraction <;> simp_all [Literal.written]

theorem Blanks.not_mem {gap : List Char} (h : Blanks gap) : c ∉ gap :=
  fun hmem => absurd (h c hmem) (by rw [hc.1]; exact Bool.false_ne_true)

theorem Listed.not_mem {ls : List Literal} {body : List Char} (h : Listed ls body)
    (hls : ∀ l ∈ ls, l.WellFormed) : c ∉ body := by
  have hcomma : c ≠ ',' := by
    rintro rfl
    exact hc.2.2 (by simp)
  induction h with
  | none hgap => exact hgap.not_mem hc
  | last hleft hright =>
    have hl := Literal.not_mem_written hc (hls _ List.mem_cons_self)
    simp [hleft.not_mem hc, hright.not_mem hc, hl]
  | more hleft hright _ ih =>
    have hl := Literal.not_mem_written hc (hls _ List.mem_cons_self)
    have hothers := ih fun l hl => hls l (List.mem_cons_of_mem _ hl)
    simp [hleft.not_mem hc, hright.not_mem hc, hl, hothers, hcomma]

end Foreign

namespace Call

/-- The names start in the same way. -/
theorem Kind.exists_name_eq (k : Kind) : ∃ rest, k.name = 'r' :: 'o' :: rest := by
  cases k <;> exact ⟨_, rfl⟩

/-- Within a name the first two letters do not come again. -/
theorem Kind.name_no_start (k : Kind) :
    ∀ j < k.name.length, 0 < j → k.name[j]? = some 'r' → k.name[j + 1]? ≠ some 'o' := by
  cases k <;> decide

theorem Written.exists_tail {call : Call} {body : List Char} (h : call.Written body) :
    ∃ c tail, c ≠ 'o' ∧ 'r' ∉ c :: tail ∧ body = call.kind.name ++ c :: tail := by
  obtain ⟨hcall, gap, inside, hgap, hinside, rfl⟩ := h
  have hforeign : Foreign 'r' := by decide
  have hr := hinside.not_mem hforeign hcall.literals
  cases gap with
  | nil => exact ⟨'(', inside ++ [')'], by decide, by simp [hr], by simp⟩
  | cons b gap =>
    refine ⟨b, gap ++ '(' :: inside ++ [')'], ?_, ?_, by simp⟩
    · rintro rfl
      exact absurd (hgap 'o' List.mem_cons_self) (by decide)
    · have hgap := hgap.not_mem hforeign
      simp_all

/-- In a call the first two letters do not come again, nor does it end with the first one. -/
theorem Written.no_start {call : Call} {body : List Char} (h : call.Written body) {j : Nat}
    (hj : 0 < j) (hr : body[j]? = some 'r') : ∃ c, c ≠ 'o' ∧ body[j + 1]? = some c := by
  obtain ⟨c, tail, hc, htail, rfl⟩ := h.exists_tail
  -- the letter is in the name, maybe at its end, or behind it
  rcases Nat.lt_or_ge j call.kind.name.length with hlt | hge
  · rw [List.getElem?_append_left hlt] at hr
    rcases Nat.lt_or_ge (j + 1) call.kind.name.length with hlt' | hge'
    · rw [List.getElem?_append_left hlt', List.getElem?_eq_getElem hlt']
      refine ⟨_, fun ho => ?_, rfl⟩
      apply call.kind.name_no_start j hlt hj hr
      rw [List.getElem?_eq_getElem hlt', ho]
    · have hend : j + 1 - call.kind.name.length = 0 := by omega
      rw [List.getElem?_append_right hge', hend]
      exact ⟨c, hc, rfl⟩
  · rw [List.getElem?_append_right hge] at hr
    exact absurd (List.mem_of_getElem? hr) htail

end Call

/-- In a text that starts with a call, the first two letters of a call do not come again before
its end. -/
theorem Call.Written.length_le_of_start {call : Call} {body rest tail : List Char}
    (hbody : call.Written body) {j : Nat} (hj : 0 < j)
    (h : (body ++ rest).drop j = 'r' :: 'o' :: tail) : body.length ≤ j := by
  by_contra hlt
  rw [Nat.not_le] at hlt
  have hr : (body ++ rest)[j]? = some 'r' := by
    rw [← List.head?_drop, h]
    rfl
  have ho : (body ++ rest)[j + 1]? = some 'o' := by
    rw [← List.head?_drop, ← List.tail_drop, h]
    rfl
  rw [List.getElem?_append_left hlt] at hr
  obtain ⟨d, hd, hnext⟩ := hbody.no_start hj hr
  have hlt' : j + 1 < body.length := (List.getElem?_eq_some_iff.mp hnext).1
  rw [List.getElem?_append_left hlt', hnext] at ho
  exact hd (Option.some.inj ho)

/-- Where a call stands, no other one starts before its end. -/
theorem Stands.le_of_lt {body rest : List Char} {call call' : Call} (hbody : call.Written body)
    {j : Nat} (hj : 0 < j) (h : Stands (body ++ rest) j call') : body.length ≤ j := by
  obtain ⟨body', hbody', suffix, htext⟩ := h
  obtain ⟨c, tail, -, -, rfl⟩ := hbody'.exists_tail
  obtain ⟨name, hname⟩ := call'.kind.exists_name_eq
  rw [hname] at htext
  exact hbody.length_le_of_start hj htext.symm

/-- Behind the beginning of a text, calls stand where they stand in the rest. -/
theorem stands_append (body rest : List Char) (i : Nat) (call : Call) :
    Stands (body ++ rest) (body.length + i) call ↔ Stands rest i call := by
  unfold Stands
  rw [List.drop_append, List.drop_of_length_le (Nat.le_add_right _ _), List.nil_append,
    Nat.add_sub_cancel_left]

/-! ### All calls of one kind -/

theorem Call.kind_of_recognise {k : Call.Kind} {cs rest : List Char} {call : Call}
    (h : k.recognise cs = some (call, rest)) : call.kind = k := by
  by_cases hk : k = .setLight
  · subst hk
    simp only [Call.Kind.recognise, Call.Kind.arguments?, bind, Option.bind_eq_some_iff, pure] at h
    obtain ⟨_, -, _, -, _, ⟨_, -, hword⟩, _, -, hcall⟩ := h
    cases hword
    cases hcall
    rfl
  · exact ((Call.Kind.recognise_eq_some_iff hk).mp h).1

/-- A kind of call that takes only numbers stands at a place when it is recognised there. -/
theorem recognise_of_stands {k : Call.Kind} (hk : k ≠ .setLight) {cs : List Char} {call : Call} :
    (∃ rest, k.recognise cs = some (call, rest)) ↔ call.kind = k ∧ Stands cs 0 call := by
  constructor
  · rintro ⟨rest, h⟩
    obtain ⟨hkind, body, hbody, rfl⟩ := (Call.Kind.recognise_eq_some_iff hk).mp h
    exact ⟨hkind, body, hbody, rest, rfl⟩
  · rintro ⟨hkind, body, hbody, rest, rfl⟩
    exact ⟨rest, (Call.Kind.recognise_eq_some_iff hk).mpr ⟨hkind, body, hbody, rfl⟩⟩

/-- The places of calls, with the calls. -/
def places (found : List Found) : List (Nat × Call) := found.map fun f => (f.start, f.call)

theorem le_of_mem_places_scan {k : Call.Kind} {start : Nat} {cs : List Char} {p : Nat × Call}
    (h : p ∈ places (scan k start cs)) : start ≤ p.1 := by
  fun_induction scan k start cs with
  | case1 => cases h
  | case2 start c rest call after _ stop ih =>
    rcases List.mem_cons.mp h with rfl | h
    · exact Nat.le_refl start
    · have hstop := ih h
      omega
  | case3 start c rest _ ih =>
    have hnext := ih h
    omega

theorem pairwise_places_scan (k : Call.Kind) (start : Nat) (cs : List Char) :
    (places (scan k start cs)).Pairwise fun p q => p.1 < q.1 := by
  fun_induction scan k start cs with
  | case1 => exact .nil
  | case2 start c rest call after h stop ih =>
    have hshort := Call.length_lt_of_recognise h
    refine List.Pairwise.cons (fun p hp => ?_) ih
    have hstop := le_of_mem_places_scan hp
    show start < p.1
    omega
  | case3 start c rest _ ih => exact ih

/-- The calls that are found are those that stand in the text. -/
theorem mem_places_scan {k : Call.Kind} (hk : k ≠ .setLight) (start : Nat) (cs : List Char)
    (i : Nat) (call : Call) :
    (start + i, call) ∈ places (scan k start cs) ↔ call.kind = k ∧ Stands cs i call := by
  fun_induction scan k start cs generalizing i with
  | case1 start =>
    constructor
    · intro hmem
      cases hmem
    -- no call is empty
    rintro ⟨-, body, hbody, hprefix⟩
    obtain ⟨c, tail, -, -, rfl⟩ := hbody.exists_tail
    simp at hprefix
  | case2 start c rest first after h stop ih =>
    obtain ⟨hkind, body, hbody, htext⟩ := (Call.Kind.recognise_eq_some_iff hk).mp h
    have hpositive : after.length < (c :: rest).length := Call.length_lt_of_recognise h
    have hlength := congrArg List.length htext
    rw [List.length_append] at hlength
    have hstop : stop = start + body.length := by omega
    show (start + i, call) ∈ (start, first) :: places (scan k stop after) ↔ _
    rw [List.mem_cons]
    -- the place is the start of the call that was found, inside it, or after it
    rcases Nat.lt_or_ge i body.length with hlt | hge
    · have hother : (start + i, call) ∉ places (scan k stop after) := by
        intro hmem
        have hle := le_of_mem_places_scan hmem
        dsimp only at hle
        omega
      rw [or_iff_left hother]
      cases i with
      | zero =>
        rw [← recognise_of_stands hk, h]
        exact ⟨fun heq => ⟨after, by cases heq; rfl⟩, fun ⟨_, heq⟩ => by cases heq; rfl⟩
      | succ i =>
        refine ⟨fun heq => ?_, fun ⟨_, hstands⟩ => ?_⟩
        · have hplace : start + (i + 1) = start := congrArg Prod.fst heq
          omega
        · rw [htext] at hstands
          have hle := hstands.le_of_lt hbody (Nat.succ_pos i)
          omega
    · obtain ⟨i, rfl⟩ := Nat.exists_eq_add_of_le hge
      have hfirst : (start + (body.length + i), call) ≠ (start, first) := by
        intro heq
        have hplace : start + (body.length + i) = start := congrArg Prod.fst heq
        omega
      have hnext := ih i
      rw [hstop, Nat.add_assoc] at hnext
      rw [or_iff_right hfirst, hstop, hnext, htext, stands_append]
  | case3 start c rest h ih =>
    -- no call starts here, so that the search goes on with the next letter
    show (start + i, call) ∈ places (scan k (start + 1) rest) ↔ _
    cases i with
    | zero =>
      refine ⟨fun hmem => ?_, fun hstands => ?_⟩
      · have hle := le_of_mem_places_scan hmem
        dsimp only at hle
        omega
      · obtain ⟨after, hsome⟩ := (recognise_of_stands hk).mpr hstands
        rw [h] at hsome
        cases hsome
    | succ i =>
      have hnext := ih i
      rw [Nat.add_right_comm, Nat.add_assoc] at hnext
      exact hnext

theorem kind_of_mem_scan {k : Call.Kind} {start : Nat} {cs : List Char} {f : Found}
    (hf : f ∈ scan k start cs) : f.call.kind = k := by
  fun_induction scan k start cs with
  | case1 => cases hf
  | case2 start c rest call after h stop ih =>
    rcases List.mem_cons.mp hf with rfl | hf
    · exact Call.kind_of_recognise h
    · exact ih hf
  | case3 start c rest _ ih => exact ih hf

/-! ### The commands of a text -/

variable {α : Type} [Scalar α]

theorem Call.meaning_of_command? {call : Call} {command : Option (Command α)}
    (h : call.command? = .ok command) : call.meaning = command := by
  cases call with
  | moveJoint joint angle =>
    simp only [Call.command?, Literal.whole?] at h
    split at h
    · cases h
    · cases h
      show (if 0 ≤ joint.integer ∧ joint.integer ≤ 4 then _ else none) =
        if 0 ≤ joint.integer ∧ joint.integer < 5 then _ else none
      exact if_congr (and_congr_right fun _ => by omega) rfl rfl
  | _ =>
    cases h
    rfl

/-- The commands that calls stand for. -/
def commandsOf (found : List Found) : List (Command α) :=
  (places found).filterMap fun p => p.2.meaning

theorem commandsOf_append (found others : List Found) :
    (commandsOf (found ++ others) : List (Command α)) = commandsOf found ++ commandsOf others := by
  unfold commandsOf places
  rw [List.map_append, List.filterMap_append]

theorem commandsOf_flatMap (kinds : List Call.Kind) (found : Call.Kind → List Found) :
    (commandsOf (kinds.flatMap found) : List (Command α)) =
      kinds.flatMap fun k => commandsOf (found k) := by
  unfold commandsOf places
  rw [List.map_flatMap, List.filterMap_flatMap]

theorem map_snd_of_emitted? {found : List Found} {emitted : List (Found × Command α)}
    (h : emitted? found = .ok emitted) :
    emitted.map Prod.snd = commandsOf found := by
  induction found generalizing emitted with
  | nil =>
    cases h
    rfl
  | cons f rest ih =>
    simp only [emitted?, bind, Except.bind] at h
    cases hcommand : (f.call.command? : Except (Fault α) _) with
    | error fault => simp [hcommand] at h
    | ok command =>
      cases hothers : (emitted? rest : Except (Fault α) _) with
      | error fault => simp [hcommand, hothers] at h
      | ok others =>
        simp only [hcommand, hothers, pure, Except.pure, Except.ok.injEq] at h
        subst h
        have hmeaning := Call.meaning_of_command? hcommand
        show List.map Prod.snd _ = List.filterMap _ ((f.start, f.call) :: places rest)
        rw [List.filterMap_cons]
        dsimp only
        rw [hmeaning]
        cases command with
        | none => exact ih hothers
        | some command => exact congrArg (command :: ·) (ih hothers)

theorem lights_of_meaning {call : Call} {command : Command α} (h : call.meaning = some command) :
    lights command = decide (call.kind = .setLight) := by
  cases call with
  | moveJoint joint angle =>
    simp only [Call.meaning] at h
    split at h <;> cases h
    rfl
  | _ =>
    cases h
    rfl

/-- None of the other kinds gives a command for the light. -/
theorem filter_commandsOf_of_ne {found : List Found} (h : ∀ f ∈ found, f.call.kind ≠ .setLight) :
    (commandsOf found).filter (fun command : Command α => !lights command) = commandsOf found := by
  refine List.filter_eq_self.mpr fun command hcommand => ?_
  obtain ⟨p, hp, hmeaning⟩ := List.mem_filterMap.mp hcommand
  obtain ⟨f, hf, rfl⟩ := List.mem_map.mp hp
  rw [lights_of_meaning hmeaning]
  simpa using h f hf

theorem filter_commandsOf_of_eq {found : List Found} (h : ∀ f ∈ found, f.call.kind = .setLight) :
    (commandsOf found).filter (fun command : Command α => !lights command) = [] := by
  refine List.filter_eq_nil_iff.mpr fun command hcommand => ?_
  obtain ⟨p, hp, hmeaning⟩ := List.mem_filterMap.mp hcommand
  obtain ⟨f, hf, rfl⟩ := List.mem_map.mp hp
  rw [lights_of_meaning hmeaning]
  simpa using h f hf

/-! ### Texts that can be read -/

/-- Only a joint number of many digits cannot be read, and it has to stand in the text. -/
theorem exists_command?_of_stands {text : List Char} (h : text.length ≤ 4300) {place : Nat}
    {call : Call} (hcall : Stands text place call) :
    ∃ command : Option (Command α), call.command? = .ok command := by
  cases call with
  | moveJoint joint angle =>
    obtain ⟨_, ⟨-, gap, body, -, hbody, rfl⟩, hprefix⟩ := hcall
    obtain ⟨left, right, others, -, -, -, rfl⟩ := Listed.more_inv hbody
    have hlength := hprefix.length_le
    simp only [Literal.written, List.length_append, List.length_cons, List.length_drop] at hlength
    have hdigits : ¬ 4300 < joint.whole.length := by omega
    simp only [Call.command?, Literal.whole?]
    rw [if_neg hdigits]
    exact ⟨_, rfl⟩
  | _ => exact ⟨_, rfl⟩

theorem exists_emitted? {found : List Found}
    (h : ∀ f ∈ found, ∃ command : Option (Command α), f.call.command? = .ok command) :
    ∃ emitted : List (Found × Command α), emitted? found = .ok emitted := by
  induction found with
  | nil => exact ⟨[], rfl⟩
  | cons f rest ih =>
    obtain ⟨command, hcommand⟩ := h f List.mem_cons_self
    obtain ⟨others, hothers⟩ := ih fun f hf => h f (List.mem_cons_of_mem _ hf)
    simp only [emitted?, bind, Except.bind, hcommand, hothers]
    exact ⟨_, rfl⟩

/-- A text that is not very long can be read. -/
theorem exists_commands? {text : List Char} (h : text.length ≤ 4300) :
    ∃ commands : List (Command α), commands? false text = .ok commands := by
  have hshort := Nat.le_trans (length_withoutComments_le text) h
  have hcalls : ∀ f ∈ found (withoutComments text),
      ∃ command : Option (Command α), f.call.command? = .ok command := by
    intro f hf
    obtain ⟨k, -, hf⟩ := List.mem_flatMap.mp hf
    by_cases hk : k = .setLight
    · have hkind := (kind_of_mem_scan hf).trans hk
      cases hcall : f.call <;> rw [hcall] at hkind <;> cases hkind
      exact ⟨_, rfl⟩
    · have hplace : (0 + f.start, f.call) ∈ places (scan k 0 (withoutComments text)) := by
        rw [Nat.zero_add]
        exact List.mem_map_of_mem hf
      exact exists_command?_of_stands hshort ((mem_places_scan hk 0 _ _ _).mp hplace).2
  obtain ⟨emitted, hemitted⟩ := exists_emitted? hcalls
  simp only [commands?, bind, Except.bind, hemitted]
  exact ⟨_, rfl⟩

/-! ### The reader and the grammar -/

end ArmRover.Program
