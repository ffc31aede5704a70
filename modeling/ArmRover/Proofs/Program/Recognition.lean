import ArmRover.Proofs.Program.Grammar
import Mathlib.Data.List.TakeWhile

/-!
# Recognition

The recogniser of a kind accepts exactly the ways to write a call of that kind. It never has to
look back: what follows a number is a blank, a comma or a parenthesis, and none of these could be
a part of the number.

* `afterWord?_eq_some_iff`, `afterMark?_eq_some_iff` — words and marks.
* `Ends`, `integer?_written`, `number?_written` — numbers.
* `Call.Kind.recognise_eq_some_iff` — calls.
-/

namespace ArmRover.Program

/-! ### Classes of characters -/

/-- No blank is a digit. -/
theorem isDigit_eq_false_of_isBlank {c : Char} (h : Text.isBlank c = true) :
    Text.isDigit c = false := by
  -- both classes only look at the code point, and there are few blanks
  have hfew : ∀ n ∈ Text.blankRanges.flatMap fun r => (List.range (r.2 - r.1 + 1)).map (r.1 + ·),
      (if n < 0x80 then if 0x30 ≤ n && n ≤ 0x39 then some (n - 0x30) else none
        else (Text.zeros.find? fun z => z ≤ n && n < z + 10).map (n - ·)).isSome = false := by
    decide
  obtain ⟨⟨first, last⟩, hrange, hc⟩ := List.any_eq_true.mp h
  simp only [Bool.and_eq_true, decide_eq_true_eq] at hc
  refine hfew c.toNat (List.mem_flatMap.mpr ⟨_, hrange, List.mem_map.mpr ⟨c.toNat - first, ?_, ?_⟩⟩)
  · rw [List.mem_range]
    omega
  · show first + (c.toNat - first) = c.toNat
    omega

/-- What comes after a number cannot be a part of it. -/
def Ends (cs : List Char) : Prop := ∀ c ∈ cs.head?, Text.isDigit c = false ∧ c ≠ '.'

/-- A mark ends a number, with blanks before it or without. -/
theorem ends_gap {gap rest : List Char} {mark : Char} (hgap : Blanks gap)
    (hdigit : Text.isDigit mark = false) (hpoint : mark ≠ '.') : Ends (gap ++ mark :: rest) := by
  cases gap with
  | nil =>
    rintro c ⟨⟩
    exact ⟨hdigit, hpoint⟩
  | cons b gap =>
    have hb : Text.isBlank b = true := hgap b List.mem_cons_self
    rintro c ⟨⟩
    refine ⟨isDigit_eq_false_of_isBlank hb, ?_⟩
    rintro rfl
    exact absurd hb (by decide)

/-! ### Runs -/

/-- A run that what follows does not continue is taken as a whole, and no more. -/
theorem takeWhile_run {p : Char → Bool} {run rest : List Char} (hrun : ∀ c ∈ run, p c = true)
    (hrest : ∀ c ∈ rest.head?, p c = false) : (run ++ rest).takeWhile p = run := by
  rw [List.takeWhile_append_of_pos hrun]
  cases rest with
  | nil => exact List.append_nil run
  | cons c rest =>
    rw [List.takeWhile_cons_of_neg (by rw [hrest c rfl]; exact Bool.false_ne_true)]
    exact List.append_nil run

theorem dropWhile_run {p : Char → Bool} {run rest : List Char} (hrun : ∀ c ∈ run, p c = true)
    (hrest : ∀ c ∈ rest.head?, p c = false) : (run ++ rest).dropWhile p = rest := by
  rw [List.dropWhile_append_of_pos hrun]
  cases rest with
  | nil => rfl
  | cons c rest =>
    exact List.dropWhile_cons_of_neg (by rw [hrest c rfl]; exact Bool.false_ne_true)

/-- A text is its leading blanks and the text after them. -/
theorem exists_gap (cs : List Char) : ∃ gap, Blanks gap ∧ cs = gap ++ Text.dropBlanks cs :=
  ⟨cs.takeWhile Text.isBlank, fun _ hc => List.mem_takeWhile_imp hc,
    (List.takeWhile_append_dropWhile ..).symm⟩

theorem dropBlanks_gap {gap rest : List Char} (hgap : Blanks gap)
    (hrest : ∀ c ∈ rest.head?, Text.isBlank c = false) : Text.dropBlanks (gap ++ rest) = rest :=
  dropWhile_run hgap hrest

/-! ### Words and marks -/

theorem afterWord?_eq_some_iff {word cs rest : List Char} :
    afterWord? word cs = some rest ↔ cs = word ++ rest := by
  fun_induction afterWord? word cs with
  | case1 cs => exact ⟨Option.some.inj, congrArg some⟩
  | case2 w word cs ih => rw [ih, List.cons_append, List.cons.injEq, and_iff_right rfl]
  | case3 w word c cs hne =>
    constructor
    · intro h
      cases h
    · intro h
      rw [List.cons_append, List.cons.injEq] at h
      exact absurd h.1.symm hne
  | case4 w word =>
    constructor
    · intro h
      cases h
    · intro h
      cases h

theorem afterMark?_gap {mark : Char} (hmark : Text.isBlank mark = false) {gap : List Char}
    (hgap : Blanks gap) (rest : List Char) : afterMark? mark (gap ++ mark :: rest) = some rest := by
  have hdrop : Text.dropBlanks (gap ++ mark :: rest) = mark :: rest :=
    dropBlanks_gap hgap (by rintro c ⟨⟩; exact hmark)
  unfold afterMark?
  rw [hdrop]
  exact if_pos rfl

theorem exists_of_afterMark? {mark : Char} {cs rest : List Char}
    (h : afterMark? mark cs = some rest) : ∃ gap, Blanks gap ∧ cs = gap ++ mark :: rest := by
  obtain ⟨gap, hgap, hcs⟩ := exists_gap cs
  refine ⟨gap, hgap, ?_⟩
  unfold afterMark? at h
  split at h
  · next c r hdrop =>
    split at h
    · next hc =>
      cases h
      rw [hcs, hdrop, hc]
    · cases h
  · cases h

/-! ### Numbers -/

theorem minus_written {l : Literal} (h : Digits l.whole) (rest : List Char) :
    minus ((if l.negative then ['-'] else []) ++ l.whole ++ rest) =
      (l.negative, l.whole ++ rest) := by
  obtain ⟨negative, whole, fraction⟩ := l
  cases negative with
  | true => rfl
  | false =>
    obtain ⟨d, ds, rfl⟩ := List.exists_cons_of_ne_nil h.1
    have hd : Text.isDigit d = true := h.2 d List.mem_cons_self
    show minus (d :: (ds ++ rest)) = _
    unfold minus
    split
    · next heq =>
      cases heq
      exact absurd hd (by decide)
    · rfl

/-- A number starts with its sign or with a digit. -/
theorem isBlank_head_written {l : Literal} (h : Digits l.whole) (rest : List Char) :
    ∀ c ∈ ((if l.negative then ['-'] else []) ++ l.whole ++ rest).head?,
      Text.isBlank c = false := by
  intro c hc
  by_contra hblank
  rw [Bool.not_eq_false] at hblank
  obtain ⟨d, ds, hds⟩ := List.exists_cons_of_ne_nil h.1
  have hd : Text.isDigit d = true := h.2 d (hds ▸ List.mem_cons_self)
  rw [hds] at hc
  cases hn : l.negative with
  | true =>
    rw [hn] at hc
    cases hc
    exact absurd hblank (by decide)
  | false =>
    rw [hn] at hc
    cases hc
    rw [isDigit_eq_false_of_isBlank hblank] at hd
    exact absurd hd Bool.false_ne_true

/-- A whole number is read to its end, which is where no digit follows. -/
theorem integer?_written {gap rest : List Char} {l : Literal} (hgap : Blanks gap)
    (h : Digits l.whole) (hrest : ∀ c ∈ rest.head?, Text.isDigit c = false) :
    integer? (gap ++ ((if l.negative then ['-'] else []) ++ l.whole ++ rest)) =
      some (⟨l.negative, l.whole, []⟩, rest) := by
  unfold integer?
  rw [dropBlanks_gap hgap (isBlank_head_written h rest), minus_written h]
  dsimp only
  rw [takeWhile_run h.2 hrest, dropWhile_run h.2 hrest]
  exact if_neg (by rw [List.isEmpty_iff]; exact h.1)

theorem exists_of_minus (cs : List Char) :
    cs = (if (minus cs).1 then ['-'] else []) ++ (minus cs).2 := by
  unfold minus
  split <;> rfl

theorem exists_of_integer? {cs rest : List Char} {l : Literal}
    (h : integer? cs = some (l, rest)) :
    ∃ gap, Blanks gap ∧ l.Whole ∧ cs = gap ++ l.written ++ rest := by
  obtain ⟨gap, hgap, hcs⟩ := exists_gap cs
  have hminus := exists_of_minus (Text.dropBlanks cs)
  unfold integer? at h
  generalize minus (Text.dropBlanks cs) = m at h hminus
  obtain ⟨negative, ds⟩ := m
  dsimp only at h hminus
  split at h
  · cases h
  · next hdigits =>
    cases h
    refine ⟨gap, hgap, ⟨⟨?_, fun _ hc => List.mem_takeWhile_imp hc⟩, rfl⟩, ?_⟩
    · rw [List.isEmpty_iff] at hdigits
      exact hdigits
    · show cs = gap ++ ((if negative then ['-'] else []) ++ ds.takeWhile Text.isDigit ++ []) ++
        ds.dropWhile Text.isDigit
      rw [List.append_nil, List.append_assoc, List.append_assoc,
        List.takeWhile_append_dropWhile, ← hminus]
      exact hcs

theorem decimals_point {ds rest : List Char} (h : Digits ds)
    (hrest : ∀ c ∈ rest.head?, Text.isDigit c = false) :
    decimals ('.' :: (ds ++ rest)) = (ds, rest) := by
  simp only [decimals, takeWhile_run h.2 hrest, dropWhile_run h.2 hrest]
  exact if_neg (by rw [List.isEmpty_iff]; exact h.1)

theorem decimals_of_ends {rest : List Char} (hrest : Ends rest) : decimals rest = ([], rest) := by
  cases rest with
  | nil => rfl
  | cons c rest =>
    unfold decimals
    split
    · next heq =>
      cases heq
      exact absurd rfl (hrest '.' rfl).2
    · rfl

theorem number?_written {gap rest : List Char} {l : Literal} (hgap : Blanks gap)
    (h : l.WellFormed) (hrest : Ends rest) :
    number? (gap ++ l.written ++ rest) = some (l, rest) := by
  obtain ⟨negative, whole, fraction⟩ := l
  obtain ⟨hwhole, hfraction⟩ := h
  unfold number?
  cases fraction with
  | nil =>
    have hint := integer?_written (l := ⟨negative, whole, []⟩) hgap hwhole
      fun c hc => (hrest c hc).1
    simp only [Literal.written, List.append_nil, if_true, List.append_assoc] at hint ⊢
    rw [hint]
    simp only [Option.map_some, decimals_of_ends hrest]
  | cons d ds =>
    have hdigits : Digits (d :: ds) := hfraction.resolve_left nofun
    have hpoint : ∀ c ∈ ('.' :: d :: ds ++ rest).head?, Text.isDigit c = false := by
      rintro c ⟨⟩
      decide
    have hint := integer?_written (l := ⟨negative, whole, d :: ds⟩) hgap hwhole hpoint
    have hdecimals := decimals_point hdigits fun c hc => (hrest c hc).1
    simp only [Literal.written, List.append_assoc, reduceCtorEq, if_false, List.cons_append]
      at hint hdecimals ⊢
    rw [hint]
    simp only [Option.map_some, hdecimals]

theorem exists_of_number? {cs rest : List Char} {l : Literal} (h : number? cs = some (l, rest)) :
    ∃ gap, Blanks gap ∧ l.WellFormed ∧ cs = gap ++ l.written ++ rest := by
  obtain ⟨⟨i, after⟩, hint, heq⟩ := Option.map_eq_some_iff.mp h
  cases heq
  obtain ⟨gap, hgap, hwhole, hcs⟩ := exists_of_integer? hint
  obtain ⟨negative, whole, fraction⟩ := i
  obtain ⟨hdigits, hnone⟩ := hwhole
  cases hnone
  refine ⟨gap, hgap, ?_⟩
  simp only [Literal.WellFormed, Literal.written, if_true, List.append_nil] at hcs ⊢
  unfold decimals
  -- a point counts only if digits follow
  split
  · next rest =>
    dsimp only
    split
    · exact ⟨⟨hdigits, .inl rfl⟩, by simpa using hcs⟩
    · next hne =>
      rw [List.isEmpty_iff] at hne
      refine ⟨⟨hdigits, .inr ⟨hne, fun _ hc => List.mem_takeWhile_imp hc⟩⟩, ?_⟩
      rw [if_neg hne, hcs]
      simp
  · exact ⟨⟨hdigits, .inl rfl⟩, by simpa using hcs⟩

/-! ### Arguments -/

section Listed

variable {l m : Literal} {ls : List Literal} {body : List Char}

theorem Listed.nil_inv (h : Listed [] body) : Blanks body := by
  cases h
  assumption

theorem Listed.last_inv (h : Listed [l] body) :
    ∃ left right, Blanks left ∧ Blanks right ∧ body = left ++ l.written ++ right := by
  cases h with
  | last hleft hright => exact ⟨_, _, hleft, hright, rfl⟩

theorem Listed.more_inv (h : Listed (l :: m :: ls) body) :
    ∃ left right others, Blanks left ∧ Blanks right ∧ Listed (m :: ls) others ∧
      body = left ++ l.written ++ right ++ ',' :: others := by
  cases h with
  | more hleft hright hothers => exact ⟨_, _, _, hleft, hright, hothers, rfl⟩

end Listed

/-- A number in its place is read to its end, and the mark after it is found. -/
theorem number?_before {left right rest : List Char} {l : Literal} {mark : Char}
    (hleft : Blanks left) (hl : l.WellFormed) (hright : Blanks right)
    (hdigit : Text.isDigit mark = false) (hpoint : mark ≠ '.') :
    number? (left ++ l.written ++ right ++ mark :: rest) = some (l, right ++ mark :: rest) := by
  rw [List.append_assoc (left ++ l.written)]
  exact number?_written hleft hl (ends_gap hright hdigit hpoint)

theorem integer?_before {left right rest : List Char} {l : Literal} {mark : Char}
    (hleft : Blanks left) (hl : l.Whole) (hright : Blanks right)
    (hdigit : Text.isDigit mark = false) (hpoint : mark ≠ '.') :
    integer? (left ++ l.written ++ right ++ mark :: rest) = some (l, right ++ mark :: rest) := by
  obtain ⟨negative, whole, fraction⟩ := l
  obtain ⟨hdigits, hnone⟩ := hl
  cases hnone
  have hends : Ends (right ++ mark :: rest) := ends_gap hright hdigit hpoint
  have hint := integer?_written (l := ⟨negative, whole, []⟩) hleft hdigits
    fun c hc => (hends c hc).1
  simp only [Literal.written, if_true, List.append_nil, List.append_assoc] at hint ⊢
  exact hint

theorem number?_gap {gap rest : List Char} (hgap : Blanks gap) :
    number? (gap ++ ')' :: rest) = none := by
  have hdrop : Text.dropBlanks (gap ++ ')' :: rest) = ')' :: rest :=
    dropBlanks_gap hgap (by rintro c ⟨⟩; decide)
  unfold number? integer?
  rw [hdrop]
  rfl

namespace Call

/-- Arguments that are written in parentheses are read, up to the blanks before the end. -/
theorem arguments?_listed {call : Call} {body : List Char} (hcall : call.WellFormed)
    (hbody : Listed call.literals body) (rest : List Char) :
    ∃ right, Blanks right ∧
      call.kind.arguments? (body ++ ')' :: rest) = some (call, right ++ ')' :: rest) := by
  cases call with
  | moveJoint joint angle =>
    obtain ⟨left, right, others, hleft, hright, hothers, rfl⟩ := Listed.more_inv hbody
    obtain ⟨left', right', hleft', hright', rfl⟩ := Listed.last_inv hothers
    refine ⟨right', hright', ?_⟩
    rw [List.append_assoc, List.cons_append]
    simp only [kind, Kind.arguments?, bind, pure]
    rw [integer?_before hleft hcall.1 hright (by decide) (by decide)]
    dsimp only [Option.bind]
    rw [afterMark?_gap (by decide) hright]
    dsimp only
    rw [number?_before hleft' hcall.2 hright' (by decide) (by decide)]
  | closeGripper effort =>
    cases effort with
    | none =>
      have hgap := Listed.nil_inv hbody
      refine ⟨body, hgap, ?_⟩
      simp only [kind, Kind.arguments?]
      rw [number?_gap hgap]
    | some l =>
      obtain ⟨left, right, hleft, hright, rfl⟩ := Listed.last_inv hbody
      refine ⟨right, hright, ?_⟩
      simp only [kind, Kind.arguments?]
      rw [number?_before hleft (hcall l List.mem_cons_self) hright (by decide) (by decide)]
  | openGripper => exact ⟨body, Listed.nil_inv hbody, rfl⟩
  | moveToPose x y z =>
    obtain ⟨left, right, others, hleft, hright, hothers, rfl⟩ := Listed.more_inv hbody
    obtain ⟨left', right', others', hleft', hright', hothers', rfl⟩ := Listed.more_inv hothers
    obtain ⟨left'', right'', hleft'', hright'', rfl⟩ := Listed.last_inv hothers'
    have hx : x.WellFormed := hcall x (by simp [literals])
    have hy : y.WellFormed := hcall y (by simp [literals])
    have hz : z.WellFormed := hcall z (by simp [literals])
    refine ⟨right'', hright'', ?_⟩
    rw [List.append_assoc, List.cons_append, List.append_assoc (left' ++ _ ++ _), List.cons_append]
    simp only [kind, Kind.arguments?, bind, pure]
    rw [number?_before hleft hx hright (by decide) (by decide)]
    dsimp only [Option.bind]
    rw [afterMark?_gap (by decide) hright]
    dsimp only
    rw [number?_before hleft' hy hright' (by decide) (by decide)]
    dsimp only
    rw [afterMark?_gap (by decide) hright']
    dsimp only
    rw [number?_before hleft'' hz hright'' (by decide) (by decide)]
  | move vx wz =>
    obtain ⟨left, right, others, hleft, hright, hothers, rfl⟩ := Listed.more_inv hbody
    obtain ⟨left', right', hleft', hright', rfl⟩ := Listed.last_inv hothers
    have hvx : vx.WellFormed := hcall vx (by simp [literals])
    have hwz : wz.WellFormed := hcall wz (by simp [literals])
    refine ⟨right', hright', ?_⟩
    rw [List.append_assoc, List.cons_append]
    simp only [kind, Kind.arguments?, bind, pure]
    rw [number?_before hleft hvx hright (by decide) (by decide)]
    dsimp only [Option.bind]
    rw [afterMark?_gap (by decide) hright]
    dsimp only
    rw [number?_before hleft' hwz hright' (by decide) (by decide)]
  | getDistance => exact ⟨body, Listed.nil_inv hbody, rfl⟩
  | setLight word => exact hcall.elim

/-- What is read as arguments is a way to write them, whatever blanks come after it. -/
theorem exists_of_arguments? {k : Kind} (hk : k ≠ .setLight) {cs rest : List Char} {call : Call}
    (h : k.arguments? cs = some (call, rest)) :
    call.kind = k ∧ call.WellFormed ∧ ∃ body, cs = body ++ rest ∧
      ∀ right, Blanks right → Listed call.literals (body ++ right) := by
  cases k <;> simp only [Kind.arguments?, bind, Option.bind_eq_some_iff, pure] at h
  case moveJoint =>
    obtain ⟨⟨joint, r1⟩, h1, r2, h2, ⟨angle, r3⟩, h3, h4⟩ := h
    cases h4
    obtain ⟨left, hleft, hjoint, rfl⟩ := exists_of_integer? h1
    obtain ⟨right, hright, rfl⟩ := exists_of_afterMark? h2
    obtain ⟨left', hleft', hangle, rfl⟩ := exists_of_number? h3
    -- the blanks before the parenthesis are not read with the arguments
    refine ⟨rfl, ⟨hjoint, hangle⟩,
      left ++ joint.written ++ right ++ ',' :: (left' ++ angle.written), by simp, ?_⟩
    intro gap hgap
    have h := Listed.more hleft hright (Listed.last (l := angle) hleft' hgap) (l := joint)
    simpa [literals] using h
  case closeGripper =>
    split at h
    · next effort r h1 =>
      cases h
      obtain ⟨left, hleft, heffort, rfl⟩ := exists_of_number? h1
      refine ⟨rfl, ?_, left ++ effort.written, rfl, fun gap hgap => .last hleft hgap⟩
      intro l hl
      obtain rfl := List.mem_singleton.mp hl
      exact heffort
    · cases h
      exact ⟨rfl, List.forall_mem_nil _, [], rfl, fun gap hgap => .none hgap⟩
  case openGripper =>
    cases h
    exact ⟨rfl, List.forall_mem_nil _, [], rfl, fun gap hgap => .none hgap⟩
  case moveToPose =>
    obtain ⟨⟨x, r1⟩, h1, r2, h2, ⟨y, r3⟩, h3, r4, h4, ⟨z, r5⟩, h5, h6⟩ := h
    cases h6
    obtain ⟨left, hleft, hx, rfl⟩ := exists_of_number? h1
    obtain ⟨right, hright, rfl⟩ := exists_of_afterMark? h2
    obtain ⟨left', hleft', hy, rfl⟩ := exists_of_number? h3
    obtain ⟨right', hright', rfl⟩ := exists_of_afterMark? h4
    obtain ⟨left'', hleft'', hz, rfl⟩ := exists_of_number? h5
    refine ⟨rfl, ?_, left ++ x.written ++ right ++ ',' :: (left' ++ y.written ++ right' ++
      ',' :: (left'' ++ z.written)), by simp, ?_⟩
    · intro l hl
      simp only [literals, List.mem_cons, List.not_mem_nil, or_false] at hl
      rcases hl with rfl | rfl | rfl
      · exact hx
      · exact hy
      · exact hz
    · intro gap hgap
      have h := Listed.more hleft hright (Listed.more hleft' hright'
        (Listed.last (l := z) hleft'' hgap) (l := y)) (l := x)
      simpa [literals] using h
  case move =>
    obtain ⟨⟨vx, r1⟩, h1, r2, h2, ⟨wz, r3⟩, h3, h4⟩ := h
    cases h4
    obtain ⟨left, hleft, hvx, rfl⟩ := exists_of_number? h1
    obtain ⟨right, hright, rfl⟩ := exists_of_afterMark? h2
    obtain ⟨left', hleft', hwz, rfl⟩ := exists_of_number? h3
    refine ⟨rfl, ?_, left ++ vx.written ++ right ++ ',' :: (left' ++ wz.written), by simp, ?_⟩
    · intro l hl
      simp only [literals, List.mem_cons, List.not_mem_nil, or_false] at hl
      rcases hl with rfl | rfl
      · exact hvx
      · exact hwz
    · intro gap hgap
      have h := Listed.more hleft hright (Listed.last (l := wz) hleft' hgap) (l := vx)
      simpa [literals] using h
  case getDistance =>
    cases h
    exact ⟨rfl, List.forall_mem_nil _, [], rfl, fun gap hgap => .none hgap⟩
  case setLight => exact absurd rfl hk

/-- The recogniser of a kind accepts the ways to write a call of that kind, and nothing else. -/
theorem Kind.recognise_eq_some_iff {k : Kind} (hk : k ≠ .setLight) {cs rest : List Char}
    {call : Call} :
    k.recognise cs = some (call, rest) ↔
      call.kind = k ∧ ∃ body, call.Written body ∧ cs = body ++ rest := by
  constructor
  · intro h
    simp only [Kind.recognise, bind, Option.bind_eq_some_iff, pure] at h
    obtain ⟨r1, h1, r2, h2, ⟨call', r3⟩, h3, r4, h4, h5⟩ := h
    cases h5
    obtain ⟨gap, hgap, rfl⟩ := exists_of_afterMark? h2
    obtain ⟨hkind, hcall, body, rfl, hbody⟩ := exists_of_arguments? hk h3
    obtain ⟨right, hright, rfl⟩ := exists_of_afterMark? h4
    refine ⟨hkind, _, ⟨hcall, gap, body ++ right, hgap, hbody right hright, rfl⟩, ?_⟩
    rw [afterWord?_eq_some_iff.mp h1, hkind]
    simp
  · rintro ⟨rfl, _, ⟨hcall, gap, body, hgap, hbody, rfl⟩, rfl⟩
    obtain ⟨right, hright, harguments⟩ := arguments?_listed hcall hbody rest
    have hword : afterWord? call.kind.name
        (call.kind.name ++ gap ++ '(' :: body ++ [')'] ++ rest) =
        some (gap ++ '(' :: (body ++ ')' :: rest)) :=
      afterWord?_eq_some_iff.mpr (by simp)
    simp only [Kind.recognise, bind, pure]
    rw [hword]
    dsimp only [Option.bind]
    rw [afterMark?_gap (by decide) hgap]
    dsimp only
    rw [harguments]
    dsimp only
    rw [afterMark?_gap (by decide) hright]

end Call

end ArmRover.Program
