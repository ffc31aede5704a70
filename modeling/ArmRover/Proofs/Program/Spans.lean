import ArmRover.Proofs.Program.OneScan
import ArmRover.Proofs.Program.Words
import Mathlib.Data.List.Pairwise

/-!
# Spans

Where the calls of one text lie to each other. Each kind is looked for by itself, in the whole text,
and what was found is not compared. Two calls that give commands are apart all the same, with one
exception: a bare word for the light can end in a short call, and the closing parenthesis of the
short call then is that of the other one, too. Both give a command.

* `Found.Reads` — the span of a call, `reads_of_mem_scan` — the spans that are found.
* `Found.Apart`, `Found.EndsWordOf` — the two ways in which spans lie to each other.
* `Enclosed.of_start_inside` — a call that starts in a word ends with it.
* `emitted_apart` — the calls that give the commands of a text.
-/

namespace ArmRover.Program

/-! ### Two spans -/

namespace Found

/-- The call is recognised at the start of its span, and goes on up to the end. -/
def Reads (cs : List Char) (f : Found) : Prop :=
  f.stop ≤ cs.length ∧ f.call.kind.recognise (cs.drop f.start) = some (f.call, cs.drop f.stop)

/-- The two spans have no character in common. -/
def Apart (f g : Found) : Prop := f.stop ≤ g.start ∨ g.stop ≤ f.start

end Found

/-- The kinds that can be called without a comma. -/
def Call.Kind.short : List Kind := [.closeGripper, .openGripper, .getDistance]

/-- The call ends the word of another one, which is for the light. They close together. -/
structure Found.EndsWordOf (cs : List Char) (g f : Found) : Prop where
  short : g.call.kind ∈ Call.Kind.short
  start : f.start < g.start
  stop : g.stop = f.stop
  word : ∃ front body, f.call = .setLight (front ++ body) ∧
    cs.drop g.start = body ++ ')' :: cs.drop g.stop

/-! ### A call that starts in another one -/

theorem Call.Written.short_of_comma_not_mem {call : Call} {text : List Char}
    (h : call.Written text) (hcomma : ',' ∉ text) : call.kind ∈ Kind.short := by
  obtain ⟨inside, hinside, -, gap, -, rfl⟩ := h.exists_enclosed
  have hlisted : ∀ {l m ls}, call.literals = l :: m :: ls → False := by
    intro l m ls hcall
    rw [hcall] at hinside
    obtain ⟨left, right, others, -, -, -, rfl⟩ := hinside.more_inv
    simp at hcomma
  cases call with
  | moveJoint joint angle => exact (hlisted rfl).elim
  | moveToPose x y z => exact (hlisted rfl).elim
  | move vx wz => exact (hlisted rfl).elim
  | setLight word => exact h.1.elim
  | _ => simp [kind, Kind.short]

/-- A mark that a text holds is where it comes first. -/
theorem eq_of_append_mark {mark : Char} {front after front' after' : List Char}
    (hfront : mark ∉ front) (hfront' : mark ∉ front')
    (h : front ++ mark :: after = front' ++ mark :: after') : front = front' ∧ after = after' := by
  have hrun : ∀ run : List Char, mark ∉ run → ∀ c ∈ run, (c != mark) = true :=
    fun run hrun c hc => bne_iff_ne.mpr fun heq => hrun (heq ▸ hc)
  have hend : ∀ rest : List Char, ∀ c ∈ (mark :: rest).head?, (c != mark) = false := by
    rintro rest c ⟨⟩
    exact bne_self_eq_false _
  constructor
  · rw [← takeWhile_run (hrun front hfront) (hend after), h,
      takeWhile_run (hrun front' hfront') (hend after')]
  · have hdrop : mark :: after = mark :: after' := by
      rw [← dropWhile_run (hrun front hfront) (hend after), h,
        dropWhile_run (hrun front' hfront') (hend after')]
    exact List.tail_eq_of_cons_eq hdrop

/-- A call that starts within a call for the light starts within its word, and ends with it: the
first closing parenthesis from there on is the last character of both. -/
theorem Enclosed.of_start_inside {k : Call.Kind} {inside text rest inside' text' rest' : List Char}
    (h : Enclosed .setLight inside text) (h' : Enclosed k inside' text') {j : Nat} (hj : 0 < j)
    (hlt : j < text.length) (heq : (text ++ rest).drop j = text' ++ rest') :
    ∃ front body, inside = front ++ body ∧ text' = body ++ [')'] ∧ rest' = rest := by
  obtain ⟨hinside, gap, hgap, rfl⟩ := h
  obtain ⟨hinside', gap', hgap', rfl⟩ := h'
  obtain ⟨name, hname⟩ := k.exists_name_eq
  have hclosed : ')' ∉ k.name ++ gap' ++ '(' :: inside' := by
    have hname : ')' ∉ k.name := by cases k <;> decide
    simp [hname, hgap'.closing_not_mem, hinside']
  -- in the name and between it and the parenthesis, the first letter does not come again
  obtain ⟨letters, hletters, hnone⟩ :
      ∃ letters, Call.Kind.setLight.name = 'r' :: letters ∧ 'r' ∉ letters := ⟨_, rfl, by decide⟩
  have hr : 'r' ∉ letters ++ gap ++ ['('] := by
    have hgap : 'r' ∉ gap := hgap.not_mem (by decide)
    simp [hnone, hgap]
  have htext : Call.Kind.setLight.name ++ gap ++ '(' :: inside ++ [')'] =
      'r' :: (letters ++ gap ++ ['(']) ++ (inside ++ [')']) := by
    simp [hletters]
  rw [htext, List.length_append, List.length_append] at hlt
  rw [htext, List.append_assoc] at heq
  rcases Nat.lt_or_ge j ('r' :: (letters ++ gap ++ ['('])).length with hin | hout
  · have hhead : ('r' :: (letters ++ gap ++ ['(']) ++ (inside ++ [')'] ++ rest))[j]? =
        some 'r' := by
      rw [← List.head?_drop, heq, hname]
      rfl
    rw [List.getElem?_append_left hin] at hhead
    obtain ⟨i, rfl⟩ := Nat.exists_eq_add_of_lt hj
    rw [Nat.zero_add, List.getElem?_cons_succ] at hhead
    exact absurd (List.mem_of_getElem? hhead) hr
  · obtain ⟨i, rfl⟩ := Nat.exists_eq_add_of_le hout
    have hi : i ≤ inside.length := by
      rw [List.length_singleton] at hlt
      omega
    rw [List.drop_append, List.drop_of_length_le (Nat.le_add_right _ _), List.nil_append,
      Nat.add_sub_cancel_left, List.append_assoc inside, List.drop_append_of_le_length hi,
      List.append_assoc (_ ++ _)] at heq
    have hfront : ')' ∉ inside.drop i := fun hmem => hinside (List.mem_of_mem_drop hmem)
    obtain ⟨hbody, hrest⟩ := eq_of_append_mark hfront hclosed heq
    exact ⟨inside.take i, inside.drop i, (List.take_append_drop i inside).symm,
      by rw [hbody], hrest.symm⟩

theorem Enclosed.exists_cons {k : Call.Kind} {inside body : List Char}
    (h : Enclosed k inside (body ++ [')'])) : ∃ tail, body = 'r' :: tail := by
  obtain ⟨-, gap, -, htext⟩ := h
  obtain ⟨letters, hletters⟩ := k.exists_name_eq
  rw [hletters] at htext
  cases body with
  | nil => cases htext
  | cons c body =>
    obtain rfl : c = 'r' := (List.cons.inj htext).1
    exact ⟨body, rfl⟩

theorem Call.Written.not_mem {call : Call} {text : List Char} (h : call.Written text) {c : Char}
    (hc : Foreign c) (hletter : ∀ k : Kind, c ∉ k.name) (hmark : c ∉ ['(', ')']) : c ∉ text := by
  obtain ⟨inside, hinside, -, gap, hgap, rfl⟩ := h.exists_enclosed
  have hinside := hinside.not_mem hc h.1.literals
  have hgap := hgap.not_mem hc
  simp_all

section Start

variable {word text rest rest' : List Char} {k : Call.Kind} {call : Call} {j : Nat}

/-- Nothing with numbers starts within a call with a word in quotes: it would go on behind the
second quote. -/
theorem Quoted.length_le_of_start (h : Quoted word text) (hk : k ≠ .setLight) (hj : 0 < j)
    (hcall : k.recognise ((text ++ rest).drop j) = some (call, rest')) : text.length ≤ j := by
  by_contra hlt
  obtain ⟨rfl, text', hwritten, htext⟩ := (Call.Kind.recognise_eq_some_iff hk).mp hcall
  obtain ⟨inside', -, henclosed'⟩ := hwritten.exists_enclosed
  obtain ⟨left, right, q, -, hright, hq, henclosed⟩ := h.enclosed
  obtain ⟨front, body, hinside, rfl, -⟩ :=
    henclosed.of_start_inside henclosed' hj (Nat.not_le.mp hlt) htext
  obtain ⟨tail, rfl⟩ := henclosed'.exists_cons
  have hquote : q ∉ 'r' :: tail ++ [')'] := by
    rcases hq with rfl | rfl
    · exact hwritten.not_mem (by decide) (by intro k; cases k <;> decide) (by decide)
    · exact hwritten.not_mem (by decide) (by intro k; cases k <;> decide) (by decide)
  rcases List.append_eq_append_iff.mp hinside with ⟨more, -, htail⟩ | ⟨more, -, htail⟩
  · -- what is left of the call stands behind the second quote, where only blanks are
    cases more with
    | nil =>
      obtain rfl : q = 'r' := (List.cons.inj htail).1
      exact hquote List.mem_cons_self
    | cons d more =>
      have hmem : 'r' ∈ right := by
        rw [(List.cons.inj htail).2]
        exact List.mem_append_right _ List.mem_cons_self
      exact hright.not_mem (by decide) hmem
  · apply hquote
    rw [htail]
    simp

/-- Within a call with a bare word only short calls start, and they end it. -/
theorem Bare.exists_ending (h : Bare word text) (hk : k ≠ .setLight) (hj : 0 < j)
    (hlt : j < text.length) (hcall : k.recognise ((text ++ rest).drop j) = some (call, rest')) :
    k ∈ Call.Kind.short ∧ rest' = rest ∧
      ∃ front body, word = front ++ body ∧ (text ++ rest).drop j = body ++ ')' :: rest' := by
  obtain ⟨rfl, text', hwritten, htext⟩ := (Call.Kind.recognise_eq_some_iff hk).mp hcall
  obtain ⟨inside', -, henclosed'⟩ := hwritten.exists_enclosed
  obtain ⟨left, hleft, henclosed⟩ := h.enclosed
  obtain ⟨front, body, hinside, rfl, hrest⟩ := henclosed.of_start_inside henclosed' hj hlt htext
  obtain ⟨tail, rfl⟩ := henclosed'.exists_cons
  obtain ⟨front, hword⟩ : ∃ front, word = front ++ 'r' :: tail := by
    rcases List.append_eq_append_iff.mp hinside with ⟨more, -, hword⟩ | ⟨more, hblanks, htail⟩
    · exact ⟨more, hword⟩
    · cases more with
      | nil => exact ⟨[], htail.symm⟩
      | cons b more =>
        obtain rfl : 'r' = b := (List.cons.inj htail).1
        exact absurd (hblanks ▸ List.mem_append_right _ List.mem_cons_self)
          (hleft.not_mem (by decide))
  have hcomma : ',' ∉ 'r' :: tail ++ [')'] := by
    intro hmem
    have hmem : ',' ∈ 'r' :: tail := by simpa using hmem
    exact (h.1 ',' (hword ▸ List.mem_append_right _ hmem)).2.1 rfl
  refine ⟨hwritten.short_of_comma_not_mem hcomma, hrest, front, 'r' :: tail, hword, ?_⟩
  rw [htext]
  simp

end Start

/-! ### The calls of one text -/

section Reads

variable {cs : List Char} {f g : Found}

theorem Found.Reads.start_add_length (h : f.Reads cs) {text : List Char}
    (htext : cs.drop f.start = text ++ cs.drop f.stop) : f.start + text.length = f.stop := by
  obtain ⟨hstop, hcall⟩ := h
  have hlength := congrArg List.length htext
  have hshort := Call.length_lt_of_recognise hcall
  simp only [List.length_drop, List.length_append] at hlength hshort
  omega

/-- Of two calls of different kinds, the later one starts behind the other one, or ends its word. -/
theorem Found.Reads.apart_of_lt (hf : f.Reads cs) (hg : g.Reads cs)
    (hkind : f.call.kind ≠ g.call.kind) (hlt : f.start < g.start) :
    f.stop ≤ g.start ∨ g.EndsWordOf cs f := by
  have hcall := hf.2
  have hcall' := hg.2
  obtain ⟨j, hj⟩ := Nat.exists_eq_add_of_lt hlt
  have hplace : cs.drop g.start = (cs.drop f.start).drop (j + 1) := by
    rw [List.drop_drop, hj]
    rfl
  rw [hplace] at hcall'
  by_cases hlight : f.call.kind = .setLight
  · have hnumbers : g.call.kind ≠ .setLight := fun heq => hkind (hlight.trans heq.symm)
    rw [hlight] at hcall
    obtain ⟨word, text, hword, hquoted | hbare, htext⟩ := exists_of_recognise_setLight hcall
    · have hstop := hf.start_add_length htext
      rw [htext] at hcall'
      have hend := hquoted.length_le_of_start hnumbers (Nat.succ_pos j) hcall'
      exact .inl (by omega)
    · have hstop := hf.start_add_length htext
      rcases Nat.lt_or_ge (j + 1) text.length with hin | hout
      · rw [htext] at hcall' hplace
        obtain ⟨hshort, hrest, front, body, hsplit, hbody⟩ :=
          hbare.exists_ending hnumbers (Nat.succ_pos j) hin hcall'
        have hlengths := congrArg List.length hrest
        simp only [List.length_drop] at hlengths
        have hstops : g.stop = f.stop := by
          have hf := hf.1
          have hg := hg.1
          omega
        exact .inr ⟨hshort, hlt, hstops, front, body, hsplit ▸ hword, hplace.trans hbody⟩
      · exact .inl (by omega)
  · obtain ⟨-, text, hwritten, htext⟩ := (Call.Kind.recognise_eq_some_iff hlight).mp hcall
    obtain ⟨inside, text', ⟨-, gap, -, rfl⟩, htext'⟩ := exists_enclosed_of_recognise hcall'
    obtain ⟨letters, hletters⟩ := g.call.kind.exists_name_eq
    have hstop := hf.start_add_length htext
    rw [htext, hletters] at htext'
    have hend := hwritten.length_le_of_start (Nat.succ_pos j) htext'
    exact .inl (by omega)

theorem Found.Reads.apart_or_endsWordOf (hf : f.Reads cs) (hg : g.Reads cs)
    (hkind : f.call.kind ≠ g.call.kind) :
    f.Apart g ∨ f.EndsWordOf cs g ∨ g.EndsWordOf cs f := by
  rcases Nat.lt_trichotomy f.start g.start with hlt | heq | hgt
  · rcases hf.apart_of_lt hg hkind hlt with hstop | hends
    · exact .inl (.inl hstop)
    · exact .inr (.inr hends)
  · have hcall := hg.2
    rw [← heq] at hcall
    exact absurd (kind_eq_of_recognise hf.2 hcall) hkind
  · rcases hg.apart_of_lt hf hkind.symm hgt with hstop | hends
    · exact .inl (.inr hstop)
    · exact .inr (.inl hends)

end Reads

theorem scan_of_recognise {k : Call.Kind} {cs after : List Char} {call : Call}
    (h : k.recognise cs = some (call, after)) (start : Nat) :
    scan k start cs = ⟨start, start + (cs.length - after.length), call⟩ ::
      scan k (start + (cs.length - after.length)) after := by
  cases cs with
  | nil => exact absurd (Call.length_lt_of_recognise h) (Nat.not_lt_zero _)
  | cons c rest =>
    rw [scan]
    split
    · next call' after' h' =>
      rw [h] at h'
      cases h'
      rfl
    · next h' =>
      rw [h] at h'
      cases h'

/-- What is found has the span of the call that is recognised there, also behind other text. -/
theorem reads_of_mem_scan (k : Call.Kind) (start : Nat) (cs : List Char) :
    ∀ f ∈ scan k start cs, ∀ front : List Char, front.length = start → f.Reads (front ++ cs) := by
  fun_induction scan k start cs with
  | case1 => exact fun f hf => absurd hf List.not_mem_nil
  | case2 start c rest call after h stop ih =>
    intro f hf front hfront
    obtain ⟨text, htext⟩ := Call.suffix_of_recognise h
    have hlength := congrArg List.length htext
    rw [List.length_append] at hlength
    have hstop : (front ++ text).length = stop := by
      rw [List.length_append]
      omega
    have hsplit : front ++ c :: rest = (front ++ text) ++ after := by
      rw [List.append_assoc, htext]
    rcases List.mem_cons.mp hf with rfl | hf
    · refine ⟨?_, ?_⟩
      · rw [hsplit, List.length_append, hstop]
        exact Nat.le_add_right _ _
      · have hend : (front ++ c :: rest).drop stop = after := by
          rw [hsplit, ← hstop, List.drop_left]
        have hcall : (front ++ c :: rest).drop start = c :: rest := by
          rw [← hfront, List.drop_left]
        show call.kind.recognise ((front ++ c :: rest).drop start) =
          some (call, (front ++ c :: rest).drop stop)
        rw [hcall, hend, Call.kind_of_recognise h, h]
    · rw [hsplit]
      exact ih f hf _ hstop
  | case3 start c rest _ ih =>
    intro f hf front hfront
    have hnext : (front ++ [c]).length = start + 1 := by
      rw [List.length_append, hfront, List.length_singleton]
    rw [List.append_cons]
    exact ih f hf _ hnext

theorem pairwise_scan (k : Call.Kind) (start : Nat) (cs : List Char) :
    (scan k start cs).Pairwise fun f g => f.stop ≤ g.start := by
  fun_induction scan k start cs with
  | case1 => exact .nil
  | case2 start c rest call after h stop ih =>
    refine List.Pairwise.cons (fun g hg => ?_) ih
    have hplace : (g.start, g.call) ∈ places (scan k stop after) := List.mem_map_of_mem hg
    exact le_of_mem_places_scan hplace
  | case3 start c rest _ ih => exact ih

theorem reads_of_mem_found {cs : List Char} {f : Found} (hf : f ∈ found cs) : f.Reads cs := by
  obtain ⟨k, -, hf⟩ := List.mem_flatMap.mp hf
  exact reads_of_mem_scan k 0 cs f hf [] rfl

/-- What stands in a text is found with its span. -/
theorem mem_found_of_stands {cs body rest : List Char} {place : Nat} {call : Call}
    (hbody : call.Written body) (hplace : cs.drop place = body ++ rest) :
    ⟨place, place + body.length, call⟩ ∈ found cs := by
  have hstands : Stands cs place call := ⟨body, hbody, rest, hplace.symm⟩
  obtain ⟨f, hf, rfl, rfl⟩ := exists_mem_found_of_stands hstands
  have hreads := reads_of_mem_found hf
  have hcall := (Call.Kind.recognise_eq_some_iff hstands.kind_ne).mpr ⟨rfl, body, hbody, hplace⟩
  rw [hreads.2] at hcall
  cases hcall
  rw [hreads.start_add_length hplace]
  exact hf

theorem pairwise_found (cs : List Char) :
    (found cs).Pairwise fun f g => f.Apart g ∨ f.EndsWordOf cs g ∨ g.EndsWordOf cs f := by
  have hkinds : Call.Kind.all.Pairwise (· ≠ ·) := by decide
  refine List.pairwise_flatMap.mpr ⟨fun k _ => ?_, hkinds.imp fun hne f hf g hg => ?_⟩
  · exact (pairwise_scan k 0 cs).imp fun hstop => .inl (.inl hstop)
  · have hkind : f.call.kind ≠ g.call.kind := by
      rw [kind_of_mem_scan hf, kind_of_mem_scan hg]
      exact hne
    exact (reads_of_mem_scan _ 0 cs f hf [] rfl).apart_or_endsWordOf
      (reads_of_mem_scan _ 0 cs g hg [] rfl) hkind

/-! ### The calls that give commands -/

section Meanings

variable {α : Type} [Scalar α] {calls : List Found}

/-- The calls that stand for a command, with the command. -/
def meanings (calls : List Found) : List (Found × Command α) :=
  calls.filterMap fun f => f.call.meaning.map (Prod.mk f)

theorem mem_meanings_iff (e : Found × Command α) :
    e ∈ meanings calls ↔ e.1 ∈ calls ∧ e.1.call.meaning = some e.2 := by
  obtain ⟨f, command⟩ := e
  unfold meanings
  rw [List.mem_filterMap]
  constructor
  · rintro ⟨g, hg, hmeaning⟩
    obtain ⟨_, hcommand, heq⟩ := Option.map_eq_some_iff.mp hmeaning
    cases heq
    exact ⟨hg, hcommand⟩
  · rintro ⟨hf, hmeaning⟩
    exact ⟨f, hf, by rw [hmeaning]; rfl⟩

theorem pairwise_meanings {R : Found → Found → Prop} (h : calls.Pairwise R) :
    (meanings calls : List (Found × Command α)).Pairwise fun d e => R d.1 e.1 := by
  unfold meanings
  rw [List.pairwise_filterMap]
  refine h.imp fun hfg d hd e he => ?_
  obtain ⟨_, -, rfl⟩ := Option.map_eq_some_iff.mp hd
  obtain ⟨_, -, rfl⟩ := Option.map_eq_some_iff.mp he
  exact hfg

theorem map_snd_meanings (calls : List Found) :
    (meanings calls : List (Found × Command α)).map Prod.snd =
      calls.filterMap fun f => f.call.meaning := by
  unfold meanings
  rw [List.map_filterMap]
  congr
  funext f
  cases (f.call.meaning : Option (Command α)) <;> rfl

theorem eq_of_emitted? {emitted : List (Found × Command α)} (h : emitted? calls = .ok emitted) :
    emitted = meanings calls := by
  induction calls generalizing emitted with
  | nil =>
    cases h
    rfl
  | cons f rest ih =>
    obtain ⟨command, hcommand, h⟩ := Action.bind_eq_ok.mp h
    obtain ⟨others, hothers, h⟩ := Action.bind_eq_ok.mp h
    have hrest := ih hothers
    unfold meanings at hrest ⊢
    rw [List.filterMap_cons, Call.meaning_of_command? hcommand, ← hrest]
    cases command with
    | none =>
      cases h
      rfl
    | some command =>
      cases h
      rfl

end Meanings

section Emitted

variable {α : Type} [Scalar α] {emitted : List (Found × Command α)}

/-- The commands of a text are those that its calls give, in one order or the other. -/
theorem exists_perm_emitted {text : List Char}
    (h : emitted? (found (withoutComments text)) = .ok emitted) (textOrder : Bool) :
    ∃ ordered : List (Found × Command α), ordered.Perm emitted ∧
      commands? textOrder text = .ok (ordered.map Prod.snd) := by
  refine ⟨if textOrder then inTextOrder emitted else emitted, ?_, ?_⟩
  · cases textOrder with
    | false => exact .refl _
    | true => exact List.mergeSort_perm _ _
  · simp only [commands?, bind, Except.bind, h]
    rfl

/-- The calls that give the commands of a text have the spans where they are recognised. Two of them
are apart, or one is short and ends the bare word of the other, which is for the light. -/
theorem emitted_apart {text : List Char}
    (h : emitted? (found (withoutComments text)) = .ok emitted) :
    (∀ textOrder, ∃ ordered : List (Found × Command α), ordered.Perm emitted ∧
      commands? textOrder text = .ok (ordered.map Prod.snd)) ∧
    (∀ e ∈ emitted, e.1.Reads (withoutComments text) ∧ e.1.call.meaning = some e.2) ∧
    emitted.Pairwise fun d e => d.1.Apart e.1 ∨
      d.1.EndsWordOf (withoutComments text) e.1 ∨ e.1.EndsWordOf (withoutComments text) d.1 := by
  refine ⟨exists_perm_emitted h, ?_⟩
  obtain rfl := eq_of_emitted? h
  refine ⟨fun e he => ?_, pairwise_meanings (pairwise_found _)⟩
  obtain ⟨hfound, hmeaning⟩ := (mem_meanings_iff e).mp he
  exact ⟨reads_of_mem_found hfound, hmeaning⟩

end Emitted

/-- Calls that are apart, since a quote stands between the word and the end. -/
theorem emitted_apart_gripper_in_quotes :
    let text := "robot.setLight('robot.openGripper('); robot.openGripper()".toList
    ∃ emitted : List (Found × Command Float),
      emitted? (found (withoutComments text)) = .ok emitted ∧
      (∀ e ∈ emitted, e.1.Reads (withoutComments text) ∧ e.1.call.meaning = some e.2) ∧
      emitted.Pairwise fun d e => d.1.Apart e.1 ∨
        d.1.EndsWordOf (withoutComments text) e.1 ∨
        e.1.EndsWordOf (withoutComments text) d.1 := by
  intro text
  obtain ⟨commands, hcommands⟩ : ∃ commands : List (Command Float),
      commands? false text = .ok commands := exists_commands? (by decide)
  obtain ⟨emitted, hemitted, -⟩ := Action.bind_eq_ok.mp hcommands
  obtain ⟨-, hreads, hapart⟩ := emitted_apart hemitted
  exact ⟨emitted, hemitted, hreads, hapart⟩

/-- A call in the bare word of a call for the light is a call by itself. Both give a command, and
the spans `15..34` and `0..34` are not apart. -/
theorem not_apart_gripper_in_light :
    let text := "robot.setLight(robot.openGripper())".toList
    ∃ emitted : List (Found × Command Float),
      emitted? (found (withoutComments text)) = .ok emitted ∧
      (∃ d ∈ emitted, d.1 = ⟨15, 34, .openGripper⟩) ∧
      (∃ e ∈ emitted, e.1 = ⟨0, 34, .setLight "robot.openGripper(".toList⟩) ∧
      ¬ emitted.Pairwise fun d e => d.1.Apart e.1 := by
  intro text
  have htext : withoutComments text = text := withoutComments_of_not_mem (by decide)
  obtain ⟨commands, hcommands⟩ : ∃ commands : List (Command Float),
      commands? false text = .ok commands := exists_commands? (by decide)
  obtain ⟨emitted, hemitted, -⟩ := Action.bind_eq_ok.mp hcommands
  have hgripper : (⟨15, 34, .openGripper⟩ : Found) ∈ found (withoutComments text) := by
    rw [htext]
    have hplace : text.drop 15 = "robot.openGripper()".toList ++ [')'] := rfl
    exact mem_found_of_stands openGripper_written hplace
  have hlight : (⟨0, 34, .setLight "robot.openGripper(".toList⟩ : Found) ∈
      found (withoutComments text) := by
    rw [htext]
    refine List.mem_flatMap.mpr ⟨.setLight, by decide, ?_⟩
    have hcall : Call.Kind.setLight.recognise text =
        some (.setLight "robot.openGripper(".toList, [')']) := rfl
    rw [scan_of_recognise hcall]
    exact List.mem_cons_self
  obtain rfl := eq_of_emitted? hemitted
  have hd := (mem_meanings_iff (α := Float) (_, .openGripper)).mpr ⟨hgripper, rfl⟩
  have he := (mem_meanings_iff (α := Float) (_, .setLight _)).mpr ⟨hlight, rfl⟩
  refine ⟨_, hemitted, ⟨_, hd, rfl⟩, ⟨_, he, rfl⟩, fun hapart => ?_⟩
  have hsymm : Std.Symm fun d e : Found × Command Float => d.1.Apart e.1 := ⟨fun _ _ => Or.symm⟩
  have hne : (⟨15, 34, .openGripper⟩ : Found) ≠ ⟨0, 34, .setLight "robot.openGripper(".toList⟩ :=
    nofun
  exact absurd (hapart.forall hd he fun heq => hne (congrArg Prod.fst heq)) (by simp [Found.Apart])

end ArmRover.Program
