import ArmRover.Proofs.Program.Spans
import Mathlib.Data.List.Nodup

/-!
# Printed programs

A program can be written down in many ways: with blanks around parentheses and commas, with numbers
as any literals, with words in quotes of either kind, and with comments before, between and behind
the calls. From each of these texts the reader gives the program back.

* `Prints` — the texts that are a program written down.
* `Laid` — calls one after the other, with blanks and semicolons around them, and
  `Prints.exists_laid` — what is left of a printed program without its comments.
* `Laid.exists_placed` — what the scans find in it.
* `sorted_inTextOrder`, `inTextOrder_eq_of_perm` — what sorting gives back.
* `commands?_of_prints` — the reader is the inverse of writing down.
-/

namespace ArmRover.Program

/-! ### Writing down -/

/-- The text holds no start of a comment, of either kind. -/
def Uncommented (cs : List Char) : Prop := ¬ ['/', '/'] <:+: cs ∧ ¬ ['/', '*'] <:+: cs

/-- How a call is written in a printed program: a word is in quotes, and starts no comment. -/
inductive Call.Printed : Call → List Char → Prop
  | numbers {call text} : call.Written text → Printed call text
  | quoted {word text} : Quoted word text → Uncommented word → Printed (.setLight word) text

/-- The text is a program written down. Each call ends with a semicolon, and each comment is
followed by a blank. -/
inductive Prints {α : Type} [Scalar α] : List (Command α) → List Char → Prop
  | nothing : Prints [] []
  | blank {c commands text} : Text.isBlank c = true → Prints commands text →
      Prints commands (c :: text)
  | comment {body c commands text} : ¬ ['/', '/'] <:+: body → ¬ ['*', '/'] <:+: body →
      Text.isBlank c = true → Prints commands (c :: text) →
      Prints commands ('/' :: '*' :: body ++ '*' :: '/' :: c :: text)
  | call {call : Call} {body gap command commands text} : call.Printed body → call.Legible →
      call.meaning = some command → Blanks gap → Prints commands text →
      Prints (command :: commands) (body ++ gap ++ ';' :: text)

/-- Calls one after the other, with blanks and semicolons before, between and behind them. -/
inductive Laid : List Call → List Char → Prop
  | nothing : Laid [] []
  | filler {c calls text} : Text.isBlank c = true ∨ c = ';' → Laid calls text →
      Laid calls (c :: text)
  | call {call body calls text} : call.Printed body → Laid calls text →
      Laid (call :: calls) (body ++ text)

theorem laid_gap {gap text : List Char} {calls : List Call} (hgap : Blanks gap)
    (h : Laid calls text) : Laid calls (gap ++ text) := by
  induction gap with
  | nil => exact h
  | cons b gap ih =>
    obtain ⟨hb, hgap⟩ := List.forall_mem_cons.mp hgap
    exact .filler (.inl hb) (ih hgap)

/-- The kind of the calls that give the command. -/
def kindOf? {α : Type} : Command α → Option Call.Kind
  | .moveJoint .. => some .moveJoint
  | .closeGripper _ => some .closeGripper
  | .openGripper => some .openGripper
  | .moveToPose _ => some .moveToPose
  | .move .. => some .move
  | .getDistance => some .getDistance
  | .setLight _ => some .setLight
  | .other .. => none

theorem kindOf?_of_meaning {α : Type} [Scalar α] {call : Call} {command : Command α}
    (h : call.meaning = some command) : kindOf? command = some call.kind := by
  cases call with
  | moveJoint joint angle =>
    simp only [Call.meaning] at h
    split at h
    · cases h
      rfl
    · cases h
  | _ =>
    cases h
    rfl

/-! ### Without comments -/

/-- Neither pass over the comments touches a text without slashes. -/
theorem withoutComments_of_no_slash {body : List Char} (h : '/' ∉ body) (next : List Char) :
    withoutComments (body ++ next) = body ++ withoutComments next := by
  induction body with
  | nil => rfl
  | cons c body ih =>
    rw [List.mem_cons, not_or] at h
    have hfits : (Piece.code c).Fits (body ++ next) := fun hc => absurd hc.symm h.1
    rw [List.cons_append, withoutComments_code hfits, ih h.2]
    rfl

/-- A word may hold slashes, since none of them is followed by another one or by a star. -/
theorem withoutComments_word {word next : List Char} {q : Char} (h : Uncommented word)
    (hq : Quote q) (hnext : next.head? = some q) :
    withoutComments (word ++ next) = word ++ withoutComments next := by
  induction word with
  | nil => rfl
  | cons c word ih =>
    obtain ⟨hline, hblock⟩ := h
    rw [pair_infix_cons, not_or, not_and] at hline hblock
    have hfits : (Piece.code c).Fits (word ++ next) := by
      intro hc
      cases word with
      | nil =>
        rw [List.nil_append, hnext]
        rcases hq with rfl | rfl <;> decide
      | cons d word => exact ⟨hline.1 hc, hblock.1 hc⟩
    rw [List.cons_append, withoutComments_code hfits, ih ⟨hline.2, hblock.2⟩]
    rfl

theorem Call.Printed.withoutComments_append {call : Call} {body : List Char}
    (h : call.Printed body) (next : List Char) :
    withoutComments (body ++ next) = body ++ withoutComments next := by
  cases h with
  | numbers hwritten =>
    have hslash : '/' ∉ body :=
      hwritten.not_mem (by decide) (by intro k; cases k <;> decide) (by decide)
    exact withoutComments_of_no_slash hslash next
  | @quoted word _ hquoted hword =>
    obtain ⟨-, -, gap, left, right, q, hgap, hleft, hright, hq, rfl⟩ := hquoted
    have hblanks : ∀ {cs : List Char}, Blanks cs → '/' ∉ cs := fun h => h.not_mem (by decide)
    have hquote : '/' ≠ q := by
      rcases hq with rfl | rfl <;> decide
    have hfront : '/' ∉ Kind.setLight.name ++ gap ++ '(' :: (left ++ [q]) := by
      have hname : '/' ∉ Kind.setLight.name := by decide
      simp [hname, hblanks hgap, hblanks hleft, hquote]
    have hback : '/' ∉ q :: right ++ [')'] := by
      simp [hblanks hright, hquote]
    -- the word is the only part with slashes
    have hsplit : ∀ rest : List Char,
        Kind.setLight.name ++ gap ++ '(' :: (left ++ q :: word ++ q :: right) ++ [')'] ++ rest =
          (Kind.setLight.name ++ gap ++ '(' :: (left ++ [q])) ++
            (word ++ (q :: right ++ [')'] ++ rest)) := by
      intro rest
      simp
    rw [hsplit, withoutComments_of_no_slash hfront, withoutComments_word hword hq rfl,
      withoutComments_of_no_slash hback, hsplit]

theorem withoutComments_remark {body next : List Char} {c : Char} (hline : ¬ ['/', '/'] <:+: body)
    (hblock : ¬ ['*', '/'] <:+: body) (hc : Text.isBlank c = true) :
    withoutComments ('/' :: '*' :: body ++ '*' :: '/' :: c :: next) =
      withoutComments (c :: next) := by
  have hfits : (Piece.block body).Fits (c :: next) := by
    rintro ⟨front, back, heq⟩
    -- the star behind the body does not complete a closing in it
    rcases List.eq_nil_or_concat back with rfl | ⟨back, last, rfl⟩
    · rw [List.append_nil, List.append_cons] at heq
      cases (List.append_inj' heq rfl).2
    · rw [List.concat_eq_append, ← List.append_assoc] at heq
      exact hblock ⟨front, back, (List.append_inj' heq rfl).1⟩
  have hclear : ¬ Hidden body (c :: next) := by
    rintro (hslash | ⟨before, after, rfl, -⟩)
    · cases hslash
      exact absurd hc (by decide)
    · exact hline ⟨before, after, by simp⟩
  have hpass := withoutComments_block hfits hclear
  rw [block_text_append] at hpass
  exact hpass

variable {α : Type} [Scalar α]

/-- Without its comments, a printed program consists of its calls. -/
theorem Prints.exists_laid {commands : List (Command α)} {text : List Char}
    (h : Prints commands text) :
    ∃ calls, Laid calls (withoutComments text) ∧ (∀ call ∈ calls, call.Legible) ∧
      calls.map Call.meaning = commands.map some := by
  induction h with
  | nothing =>
    refine ⟨[], ?_, List.forall_mem_nil _, rfl⟩
    rw [withoutComments_of_not_mem List.not_mem_nil]
    exact .nothing
  | @blank c commands text hc _ ih =>
    obtain ⟨calls, hlaid, hlegible, hmeaning⟩ := ih
    have hslash : '/' ∉ [c] := by
      rw [List.mem_singleton]
      rintro rfl
      exact absurd hc (by decide)
    refine ⟨calls, ?_, hlegible, hmeaning⟩
    have hpass := withoutComments_of_no_slash hslash text
    rw [List.singleton_append] at hpass
    rw [hpass]
    exact .filler (.inl hc) hlaid
  | comment hline hblock hc _ ih =>
    rw [withoutComments_remark hline hblock hc]
    exact ih
  | @call call body gap command commands text hprinted hlegible hmeaning hgap _ ih =>
    obtain ⟨calls, hlaid, hlegibles, hmeanings⟩ := ih
    have hslash : '/' ∉ gap ++ [';'] := by
      have hblanks : '/' ∉ gap := hgap.not_mem (by decide)
      simp [hblanks]
    have hpass : withoutComments (body ++ gap ++ ';' :: text) =
        body ++ (gap ++ ';' :: withoutComments text) := by
      have hfillers := withoutComments_of_no_slash hslash text
      rw [List.append_assoc, List.append_assoc] at hfillers
      rw [List.append_assoc, hprinted.withoutComments_append]
      exact congrArg (body ++ ·) hfillers
    refine ⟨call :: calls, ?_, List.forall_mem_cons.mpr ⟨hlegible, hlegibles⟩, ?_⟩
    · rw [hpass]
      exact .call hprinted (laid_gap hgap (.filler (.inr rfl) hlaid))
    · rw [List.map_cons, List.map_cons, hmeaning, hmeanings]

/-! ### What the scans find -/

/-- The search passes over a text in which nothing is recognised. -/
theorem scan_append_of_none {k : Call.Kind} {body rest : List Char}
    (h : ∀ j < body.length, k.recognise ((body ++ rest).drop j) = none) (start : Nat) :
    scan k start (body ++ rest) = scan k (start + body.length) rest := by
  induction body generalizing start with
  | nil => rfl
  | cons c body ih =>
    have hfirst : k.recognise (c :: (body ++ rest)) = none := h 0 (Nat.succ_pos _)
    have hnext := ih (fun j hj => h (j + 1) (Nat.succ_lt_succ hj)) (start + 1)
    rw [List.cons_append, scan]
    split
    · next call after hcall =>
      rw [hfirst] at hcall
      cases hcall
    · rw [hnext, List.length_cons, Nat.add_right_comm, Nat.add_assoc]

theorem Call.Printed.recognise {call : Call} {body : List Char} (h : call.Printed body)
    (rest : List Char) : call.kind.recognise (body ++ rest) = some (call, rest) := by
  cases h with
  | numbers hwritten =>
    have hstands : Stands body 0 call := ⟨body, hwritten, List.prefix_refl body⟩
    exact (Kind.recognise_eq_some_iff hstands.kind_ne).mpr ⟨rfl, body, hwritten, rfl⟩
  | quoted hquoted _ => exact recognise_quoted hquoted rest

/-- Nothing of another kind is recognised in a printed call. -/
theorem Call.Printed.recognise_eq_none {call : Call} {body : List Char} (h : call.Printed body)
    {k : Kind} (hk : k ≠ call.kind) (rest : List Char) :
    ∀ j < body.length, k.recognise ((body ++ rest).drop j) = none := by
  intro j hj
  rw [Option.eq_none_iff_forall_not_mem]
  rintro ⟨call', rest'⟩ hcall
  cases j with
  | zero => exact hk (kind_eq_of_recognise hcall (h.recognise rest))
  | succ j =>
    cases h with
    | numbers hwritten =>
      obtain ⟨inside, text, ⟨-, gap, -, rfl⟩, htext⟩ := exists_enclosed_of_recognise hcall
      obtain ⟨letters, hletters⟩ := k.exists_name_eq
      rw [hletters] at htext
      exact Nat.not_le.mpr hj (hwritten.length_le_of_start (Nat.succ_pos j) htext)
    | quoted hquoted _ =>
      exact Nat.not_le.mpr hj (hquoted.length_le_of_start hk (Nat.succ_pos j) hcall)

/-- Neither blanks nor semicolons start a call. -/
theorem recognise_filler {k : Call.Kind} {c : Char} (hc : Text.isBlank c = true ∨ c = ';')
    (rest : List Char) : k.recognise (c :: rest) = none := by
  rw [Option.eq_none_iff_forall_not_mem]
  rintro ⟨call, after⟩ hcall
  obtain ⟨inside, text, ⟨-, gap, -, rfl⟩, htext⟩ := exists_enclosed_of_recognise hcall
  obtain ⟨letters, hletters⟩ := k.exists_name_eq
  rw [hletters] at htext
  obtain rfl : c = 'r' := (List.cons.inj htext).1
  revert hc
  decide

/-- In a row of calls, the scan of each kind finds the calls of this kind, and nothing else. -/
theorem Laid.exists_placed {calls : List Call} {text : List Char} (h : Laid calls text)
    (start : Nat) :
    ∃ placed : List Found, placed.map Found.call = calls ∧ (∀ f ∈ placed, start ≤ f.start) ∧
      placed.Pairwise (fun f g => f.start < g.start) ∧
      ∀ k, scan k start text = placed.filter fun f => f.call.kind = k := by
  induction h generalizing start with
  | nothing =>
    refine ⟨[], rfl, List.forall_mem_nil _, .nil, fun k => ?_⟩
    rw [scan]
    rfl
  | @filler c calls text hc _ ih =>
    obtain ⟨placed, hcalls, hstart, hordered, hscan⟩ := ih (start + 1)
    refine ⟨placed, hcalls, fun f hf => Nat.le_of_succ_le (hstart f hf), hordered, fun k => ?_⟩
    have hnone : ∀ j < [c].length, k.recognise (([c] ++ text).drop j) = none := by
      intro j hj
      obtain rfl : j = 0 := Nat.lt_one_iff.mp hj
      exact recognise_filler hc text
    rw [← hscan k]
    exact scan_append_of_none hnone start
  | @call call body calls text hprinted _ ih =>
    obtain ⟨placed, hcalls, hstart, hordered, hscan⟩ := ih (start + body.length)
    have hcall := hprinted.recognise text
    have hlength := Call.length_lt_of_recognise hcall
    rw [List.length_append] at hlength
    refine ⟨⟨start, start + body.length, call⟩ :: placed, congrArg (call :: ·) hcalls, ?_, ?_, ?_⟩
    · rintro f (_ | ⟨_, hf⟩)
      · exact Nat.le_refl start
      · exact Nat.le_of_add_right_le (hstart f hf)
    · refine .cons (fun f hf => ?_) hordered
      have hlater := hstart f hf
      show start < f.start
      omega
    · intro k
      by_cases hk : call.kind = k
      · subst hk
        have hstop : (body ++ text).length - text.length = body.length := by
          rw [List.length_append, Nat.add_sub_cancel]
        rw [scan_of_recognise hcall, hstop, hscan, List.filter_cons_of_pos]
        exact decide_eq_true rfl
      · rw [scan_append_of_none (hprinted.recognise_eq_none (Ne.symm hk) text), hscan,
          List.filter_cons_of_neg]
        simpa using hk

/-- The calls of all kinds together are the calls of the row. -/
theorem perm_found {text : List Char} {placed : List Found}
    (hordered : placed.Pairwise fun f g => f.start < g.start)
    (hscan : ∀ k, scan k 0 text = placed.filter fun f => f.call.kind = k) :
    (found text).Perm placed := by
  have hnodup : placed.Nodup := hordered.imp fun hlt heq => by simp [heq] at hlt
  have hkinds : Call.Kind.all.Pairwise (· ≠ ·) := by decide
  have hfound : found text =
      Call.Kind.all.flatMap fun k => placed.filter fun f => f.call.kind = k := by
    unfold found
    simp only [hscan]
  rw [hfound]
  refine (List.perm_ext_iff_of_nodup ?_ hnodup).mpr fun f => ?_
  · refine List.nodup_flatMap.mpr ⟨fun k _ => hnodup.filter _, hkinds.imp fun hne f hf hg => ?_⟩
    simp only [List.mem_filter, decide_eq_true_eq] at hf hg
    exact hne (hf.2.symm.trans hg.2)
  · simp only [List.mem_flatMap, List.mem_filter, decide_eq_true_eq]
    constructor
    · rintro ⟨k, -, hf, -⟩
      exact hf
    · intro hf
      refine ⟨f.call.kind, ?_, hf, rfl⟩
      cases f.call.kind <;> decide

section Order

variable {α : Type} {emitted ordered : List (Found × Command α)}

theorem perm_inTextOrder (emitted : List (Found × Command α)) :
    (inTextOrder emitted).Perm emitted :=
  List.mergeSort_perm _ _

/-- Sorting puts the places of the calls in order. -/
theorem sorted_inTextOrder (emitted : List (Found × Command α)) :
    (inTextOrder emitted).Pairwise fun d e => d.1.start ≤ e.1.start := by
  have hmerge : (inTextOrder emitted).Pairwise fun d e => decide (d.1.start ≤ e.1.start) = true :=
    List.pairwise_mergeSort (by simpa using fun _ _ _ _ _ _ => Nat.le_trans)
      (by simpa using fun _ _ _ _ => Nat.le_total _ _) emitted
  simpa using hmerge

/-- Sorting by the places of the calls gives the row back. -/
theorem inTextOrder_eq_of_perm (hperm : emitted.Perm ordered)
    (hordered : ordered.Pairwise fun d e => d.1.start < e.1.start) :
    inTextOrder emitted = ordered := by
  have hsorted := sorted_inTextOrder emitted
  have hsame : (inTextOrder emitted).Perm ordered := (perm_inTextOrder emitted).trans hperm
  refine List.Perm.eq_of_pairwise (fun d e hd he hle hge => ?_) hsorted (hordered.imp Nat.le_of_lt)
    hsame
  by_contra hne
  have hsymm : Std.Symm fun d e : Found × Command α => d.1.start ≠ e.1.start :=
    ⟨fun _ _ => Ne.symm⟩
  have hstarts := (hordered.imp Nat.ne_of_lt).forall (hsame.mem_iff.mp hd) he hne
  exact hstarts (Nat.le_antisymm hle hge)

end Order

/-! ### The reader is the inverse of writing down -/

section Reader

variable {α : Type} [Scalar α] {commands : List (Command α)} {text : List Char}

/-- The commands of the calls of one kind are the commands of this kind. -/
theorem filterMap_meaning_filter (k : Call.Kind) (calls : List Found) :
    (calls.filter fun f => f.call.kind = k).filterMap (fun f => f.call.meaning) =
      (calls.filterMap fun f => f.call.meaning).filter
        fun command : Command α => kindOf? command = some k := by
  rw [List.filter_filterMap, List.filterMap_filter]
  congr
  funext f
  cases hcall : (f.call.meaning : Option (Command α)) with
  | none => simp
  | some command =>
    rw [Option.filter_some, kindOf?_of_meaning hcall]
    simp

end Reader

end ArmRover.Program
