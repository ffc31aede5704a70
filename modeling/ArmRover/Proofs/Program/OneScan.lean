import ArmRover.Proofs.Program.Legible

/-!
# Comments by one scan

What a comment is, as one scan from left to right says it: outside comments `//` opens one up to the
end of the line and `/*` one up to the next `*/`, and inside a comment neither means anything. The
reader makes two passes instead, and the first one does not know of block comments: a `//` in the
last line of a block, or a slash right behind it, takes the `*/` away with the rest of the line.
Blocks without such a `//` or slash are what the two passes and the one scan agree on.

* `Piece`, `pieces?` — the text cut by one scan, `left` — what it leaves.
* `Piece.Fits` — the pieces in their places, `of_pieces?` — the scan gives such pieces.
* `Hidden`, `Clear` — closings that the first pass takes away, and texts without.
* `withoutComments_piece` — both passes over one piece.
* `comments_removed` — both passes over a text.
-/

namespace ArmRover.Program

/-! ### One scan -/

/-- What a scan cuts a text into: the characters outside comments, and the comments. -/
inductive Piece where
  | code (c : Char)
  | line (body : List Char)
  | block (body : List Char)
  deriving DecidableEq, Repr

namespace Piece

/-- The characters of a piece. -/
def text : Piece → List Char
  | code c => [c]
  | line body => '/' :: '/' :: body
  | block body => '/' :: '*' :: body ++ ['*', '/']

/-- What is left of a piece when comments go. -/
def left : Piece → List Char
  | code c => [c]
  | line _ | block _ => []

end Piece

/-- The text of pieces one after the other. -/
def textOf (pieces : List Piece) : List Char := pieces.flatMap Piece.text

/-- What is left of pieces when comments go. -/
def left (pieces : List Piece) : List Char := pieces.flatMap Piece.left

/-- The text before the first `*/`, and the text after it. -/
def closing? : List Char → Option (List Char × List Char)
  | [] => none
  | '*' :: '/' :: rest => some ([], rest)
  | c :: rest => (closing? rest).map fun (body, after) => (c :: body, after)

theorem eq_of_closing? {cs body after : List Char} (h : closing? cs = some (body, after)) :
    cs = body ++ '*' :: '/' :: after := by
  fun_induction closing? cs generalizing body with
  | case1 => cases h
  | case2 rest =>
    cases h
    rfl
  | case3 c rest _ ih =>
    obtain ⟨⟨inner, _⟩, hrest, heq⟩ := Option.map_eq_some_iff.mp h
    cases heq
    rw [ih hrest]
    rfl

/-- The pieces of a text by one scan from left to right, if its last block comment is closed. -/
def pieces? : List Char → Option (List Piece)
  | [] => some []
  | '/' :: '/' :: rest =>
    (pieces? (lineEnd rest)).map (.line (rest.takeWhile (· != '\n')) :: ·)
  | '/' :: '*' :: rest =>
    match _closed : closing? rest with
    | some (body, after) => (pieces? after).map (.block body :: ·)
    | none => none
  | c :: rest => (pieces? rest).map (.code c :: ·)
termination_by cs => cs.length
decreasing_by
  · have := length_lineEnd_le rest
    simp only [List.length_cons]
    omega
  · rw [eq_of_closing? _closed]
    simp only [List.length_cons, List.length_append]
    omega
  · simp

/-! ### Pieces in their places -/

/-- A piece can be followed by the text: a character of code opens no comment, a line goes up to its
end, and a block up to the first `*/`. -/
def Piece.Fits (next : List Char) : Piece → Prop
  | code c => c = '/' → next.head? ≠ some '/' ∧ next.head? ≠ some '*'
  | line body => '\n' ∉ body ∧ ∀ c ∈ next.head?, c = '\n'
  | block body => ¬ ['*', '/'] <:+: body ++ ['*']

theorem lineEnd_append {body next : List Char} (hbody : '\n' ∉ body)
    (hnext : ∀ c ∈ next.head?, c = '\n') : lineEnd (body ++ next) = next := by
  refine dropWhile_run (fun c hc => ?_) fun c hc => ?_
  · exact bne_iff_ne.mpr fun heq => hbody (heq ▸ hc)
  · rw [hnext c hc]
    rfl

theorem head?_lineEnd {cs : List Char} : ∀ c ∈ (lineEnd cs).head?, c = '\n' := by
  intro c hc
  have hend := List.head?_dropWhile_not (· != '\n') cs
  unfold lineEnd at hc
  rw [hc] at hend
  simpa using hend

theorem not_mem_takeWhile_line (cs : List Char) : '\n' ∉ cs.takeWhile (· != '\n') :=
  fun hmem => absurd (List.mem_takeWhile_imp hmem) (by decide)

/-- The first `*/` is the only one up to it. -/
theorem not_infix_of_closing? {cs body after : List Char} (h : closing? cs = some (body, after)) :
    ¬ ['*', '/'] <:+: body ++ ['*'] := by
  fun_induction closing? cs generalizing body with
  | case1 => cases h
  | case2 rest =>
    cases h
    decide
  | case3 c rest hne ih =>
    obtain ⟨⟨inner, _⟩, hrest, heq⟩ := Option.map_eq_some_iff.mp h
    cases heq
    rw [List.cons_append, pair_infix_cons]
    rintro (⟨rfl, hhead⟩ | hin)
    · have htext := eq_of_closing? hrest
      cases inner with
      | nil => cases hhead
      | cons d inner =>
        cases hhead
        exact hne _ rfl htext
    · exact ih hrest hin

theorem textOf_cons (p : Piece) (pieces : List Piece) :
    textOf (p :: pieces) = p.text ++ textOf pieces := rfl

theorem block_text_append (body next : List Char) :
    (Piece.block body).text ++ next = '/' :: '*' :: (body ++ '*' :: '/' :: next) := by
  simp [Piece.text]

/-- The pieces of a text make up the text. -/
theorem textOf_of_pieces? {cs : List Char} {pieces : List Piece} (h : pieces? cs = some pieces) :
    textOf pieces = cs := by
  fun_induction pieces? cs generalizing pieces with
  | case1 =>
    cases h
    rfl
  | case2 rest ih =>
    obtain ⟨others, hothers, rfl⟩ := Option.map_eq_some_iff.mp h
    rw [textOf_cons, ih hothers]
    exact congrArg ('/' :: '/' :: ·) List.takeWhile_append_dropWhile
  | case3 rest body after hclosed ih =>
    obtain ⟨others, hothers, rfl⟩ := Option.map_eq_some_iff.mp h
    rw [textOf_cons, ih hothers, eq_of_closing? hclosed]
    simp [Piece.text]
  | case4 => cases h
  | case5 c rest _ _ ih =>
    obtain ⟨others, hothers, rfl⟩ := Option.map_eq_some_iff.mp h
    rw [textOf_cons, ih hothers]
    rfl

/-- Each piece fits the text of those after it. -/
def Fitting : List Piece → Prop
  | [] => True
  | p :: rest => p.Fits (textOf rest) ∧ Fitting rest

theorem fitting_of_pieces? {cs : List Char} {pieces : List Piece} (h : pieces? cs = some pieces) :
    Fitting pieces := by
  fun_induction pieces? cs generalizing pieces with
  | case1 =>
    cases h
    trivial
  | case2 rest ih =>
    obtain ⟨others, hothers, rfl⟩ := Option.map_eq_some_iff.mp h
    refine ⟨⟨not_mem_takeWhile_line rest, ?_⟩, ih hothers⟩
    rw [textOf_of_pieces? hothers]
    exact head?_lineEnd
  | case3 rest body after hclosed ih =>
    obtain ⟨others, hothers, rfl⟩ := Option.map_eq_some_iff.mp h
    exact ⟨not_infix_of_closing? hclosed, ih hothers⟩
  | case4 => cases h
  | case5 c rest hline hblock ih =>
    obtain ⟨others, hothers, rfl⟩ := Option.map_eq_some_iff.mp h
    refine ⟨fun hc => ?_, ih hothers⟩
    rw [textOf_of_pieces? hothers]
    cases rest with
    | nil => exact ⟨nofun, nofun⟩
    | cons d rest =>
      exact ⟨fun hd => hline rest hc (by rw [Option.some.inj hd]),
        fun hd => hblock rest hc (by rw [Option.some.inj hd])⟩

theorem closing?_append {body : List Char} (hfits : ¬ ['*', '/'] <:+: body ++ ['*'])
    (next : List Char) :
    closing? (body ++ '*' :: '/' :: next) = some (body, next) := by
  induction body with
  | nil => simp [closing?]
  | cons c body ih =>
    rw [List.cons_append, pair_infix_cons, not_or, not_and] at hfits
    rw [List.cons_append, closing?.eq_3, ih hfits.2]
    · rfl
    · intro rest hc hrest
      cases body with
      | nil => cases hrest
      | cons d body =>
        cases hrest
        exact hfits.1 hc rfl

theorem pieces?_textOf {pieces : List Piece} (h : Fitting pieces) :
    pieces? (textOf pieces) = some pieces := by
  induction pieces with
  | nil => simp [textOf, pieces?]
  | cons p pieces ih =>
    obtain ⟨hp, hrest⟩ := h
    have hpieces := ih hrest
    rw [textOf_cons]
    cases p with
    | code c =>
      show pieces? (c :: textOf pieces) = _
      rw [pieces?.eq_4, hpieces]
      · rfl
      · rintro rest hc hnext
        exact (hp hc).1 (by rw [hnext]; rfl)
      · rintro rest hc hnext
        exact (hp hc).2 (by rw [hnext]; rfl)
    | line body =>
      have hline : (body ++ textOf pieces).takeWhile (· != '\n') = body :=
        takeWhile_run (fun c hc => bne_iff_ne.mpr fun heq => hp.1 (heq ▸ hc))
          fun c hc => by rw [hp.2 c hc]; rfl
      show pieces? ('/' :: '/' :: (body ++ textOf pieces)) = _
      rw [pieces?.eq_2, lineEnd_append hp.1 hp.2, hpieces, hline]
      rfl
    | block body =>
      have hclosing := closing?_append hp (textOf pieces)
      rw [block_text_append, pieces?.eq_3]
      split
      · next body' after hbody =>
        rw [hclosing] at hbody
        cases hbody
        rw [hpieces]
        rfl
      · next hnone =>
        rw [hclosing] at hnone
        cases hnone

/-- The scan cuts a text into the pieces that make it up and that fit one another. -/
theorem pieces?_eq_some_iff {cs : List Char} {pieces : List Piece} :
    pieces? cs = some pieces ↔ textOf pieces = cs ∧ Fitting pieces :=
  ⟨fun h => ⟨textOf_of_pieces? h, fitting_of_pieces? h⟩, fun ⟨htext, hfits⟩ =>
    htext ▸ pieces?_textOf hfits⟩

/-! ### Hidden closings -/

/-- The first pass takes the closing of a block away: there is a `//` in the last line of the block,
or a slash right behind it. -/
def Hidden (body next : List Char) : Prop :=
  next.head? = some '/' ∨ ∃ before after, body = before ++ '/' :: '/' :: after ∧ '\n' ∉ after

theorem Hidden.append {body next : List Char} (h : Hidden body next) (front : List Char) :
    Hidden (front ++ body) next := by
  rcases h with hnext | ⟨before, after, rfl, hafter⟩
  · exact .inl hnext
  · exact .inr ⟨front ++ before, after, (List.append_assoc ..).symm, hafter⟩

/-- After a `//` the rest of the line does not count. -/
theorem Hidden.of_append (front : List Char) {body next : List Char}
    (h : Hidden (front ++ '\n' :: body) next) : Hidden ('\n' :: body) next := by
  rcases h with hnext | ⟨before, after, heq, hafter⟩
  · exact .inl hnext
  rcases List.append_eq_append_iff.mp heq with ⟨inner, -, hbody⟩ | ⟨inner, -, hslash⟩
  · exact .inr ⟨inner, after, hbody, hafter⟩
  · have hbreak : '\n' ∈ '/' :: '/' :: after := hslash ▸ List.mem_append_right _ List.mem_cons_self
    simp [hafter] at hbreak

/-- A line that ends. -/
theorem exists_lineEnd {cs : List Char} (h : '\n' ∈ cs) (next : List Char) :
    ∃ front rest, cs = front ++ '\n' :: rest ∧ lineEnd cs = '\n' :: rest ∧
      lineEnd (cs ++ next) = '\n' :: rest ++ next := by
  obtain ⟨front, rest, rfl, hfront⟩ := List.eq_append_cons_of_mem h
  have hbreak : ∀ more : List Char, ∀ c ∈ ('\n' :: rest ++ more).head?, c = '\n' := by
    rintro more c ⟨⟩
    rfl
  have hline := lineEnd_append hfront (hbreak [])
  rw [List.append_nil] at hline
  refine ⟨front, rest, rfl, hline, ?_⟩
  rw [List.append_assoc]
  exact lineEnd_append hfront (hbreak next)

/-- In a block, the first pass over a character that opens no comment. -/
theorem body_cons {c : Char} {body : List Char}
    (hopen : ∀ rest, c = '/' → body = '/' :: rest → False)
    (hfits : ¬ ['*', '/'] <:+: c :: body ++ ['*']) (next : List Char) :
    withoutLines (c :: body ++ '*' :: '/' :: next) =
        c :: withoutLines (body ++ '*' :: '/' :: next) ∧
      (c = '*' → (withoutLines (body ++ '*' :: '/' :: next)).head? ≠ some '/') := by
  rw [List.cons_append, pair_infix_cons, not_or, not_and] at hfits
  have hhead : (body ++ '*' :: '/' :: next).head? = (body ++ ['*']).head? := by
    cases body <;> rfl
  constructor
  · refine withoutLines_cons fun hc hslash => ?_
    cases body with
    | nil => cases hslash
    | cons d body =>
      cases hslash
      exact hopen body hc rfl
  · intro hc
    rw [head?_withoutLines, hhead]
    · exact hfits.1 hc
    · intro rest hrest
      rw [hrest] at hhead
      exact hfits.1 hc hhead.symm

/-- A closing that is not hidden is the first one after the first pass, too. -/
theorem blockEnd?_withoutLines {body next : List Char} (hfits : ¬ ['*', '/'] <:+: body ++ ['*'])
    (hclear : ¬ Hidden body next) :
    blockEnd? (withoutLines (body ++ '*' :: '/' :: next)) = some (withoutLines next) := by
  fun_induction withoutLines body with
  | case1 =>
    have hnext : next.head? ≠ some '/' := fun h => hclear (.inl h)
    rw [List.nil_append, withoutLines_cons (by simp), withoutLines_cons fun _ => hnext]
    rfl
  | case2 line ih =>
    -- the line of the `//` ends within the block
    have hbreak : '\n' ∈ line := by
      by_contra hnone
      exact hclear (.inr ⟨[], line, rfl, hnone⟩)
    obtain ⟨front, rest, rfl, hline, hlines⟩ := exists_lineEnd hbreak ('*' :: '/' :: next)
    rw [hline] at ih
    rw [List.cons_append, List.cons_append, withoutLines.eq_2, hlines]
    refine ih (fun hin => hfits ?_) fun h => hclear (h.append ('/' :: '/' :: front))
    exact hin.trans ⟨'/' :: '/' :: front, [], by simp⟩
  | case3 c body hopen ih =>
    obtain ⟨hpass, hhead⟩ := body_cons hopen hfits next
    rw [hpass, blockEnd?_cons hhead]
    refine ih (fun hin => hfits ?_) fun h => hclear (h.append [c])
    exact hin.trans ⟨[c], [], by simp⟩

/-- After a `//` that hides a closing the rest of the line does not count. -/
theorem lineEnd_of_not_mem {cs : List Char} (h : '\n' ∉ cs) (next : List Char) :
    lineEnd (cs ++ next) = lineEnd next :=
  List.dropWhile_append_of_pos fun _ hc => bne_iff_ne.mpr fun heq => h (heq ▸ hc)

theorem head?_withoutLines_lineEnd {cs : List Char} :
    (withoutLines (lineEnd cs)).head? ≠ some '/' := by
  rw [head?_withoutLines]
  · exact fun h => absurd (head?_lineEnd '/' h) (by decide)
  · intro rest h
    exact absurd (head?_lineEnd '/' (by rw [h]; rfl)) (by decide)

/-- A closing that is hidden goes with the rest of its line, and no other one comes before. -/
theorem withoutLines_of_hidden {body next : List Char} (hfits : ¬ ['*', '/'] <:+: body ++ ['*'])
    (hhidden : Hidden body next) :
    ∃ kept, withoutLines (body ++ '*' :: '/' :: next) = kept ++ withoutLines (lineEnd next) ∧
      blockEnd? (withoutLines (body ++ '*' :: '/' :: next)) =
        blockEnd? (withoutLines (lineEnd next)) := by
  fun_induction withoutLines body with
  | case1 =>
    have hnext : next.head? = some '/' := by
      rcases hhidden with hnext | ⟨before, after, heq, -⟩
      · exact hnext
      · simp at heq
    obtain ⟨rest, rfl⟩ := List.head?_eq_some_iff.mp hnext
    have hline : lineEnd ('/' :: rest) = lineEnd rest := by
      have hmark : '\n' ∉ ['/'] := by decide
      exact lineEnd_of_not_mem hmark rest
    rw [List.nil_append, withoutLines_cons (by simp), withoutLines.eq_2, hline]
    exact ⟨['*'], rfl, blockEnd?_cons fun _ => head?_withoutLines_lineEnd⟩
  | case2 line ih =>
    rw [List.cons_append, List.cons_append, withoutLines.eq_2]
    by_cases hbreak : '\n' ∈ line
    · obtain ⟨front, rest, rfl, hline, hlines⟩ := exists_lineEnd hbreak ('*' :: '/' :: next)
      rw [hline] at ih
      rw [hlines]
      refine ih (fun hin => hfits ?_) (Hidden.of_append ('/' :: '/' :: front) hhidden)
      exact hin.trans ⟨'/' :: '/' :: front, [], by simp⟩
    · have hline : lineEnd (line ++ '*' :: '/' :: next) = lineEnd next := by
        have hmark : '\n' ∉ ['*', '/'] := by decide
        rw [lineEnd_of_not_mem hbreak]
        exact lineEnd_of_not_mem hmark next
      rw [hline]
      exact ⟨[], rfl, rfl⟩
  | case3 c body hopen ih =>
    obtain ⟨hpass, hhead⟩ := body_cons hopen hfits next
    have hbody : Hidden body next := by
      rcases hhidden with hnext | ⟨before, after, heq, hafter⟩
      · exact .inl hnext
      · cases before with
        | nil =>
          cases heq
          exact (hopen after rfl rfl).elim
        | cons b before =>
          cases heq
          exact .inr ⟨before, after, rfl, hafter⟩
    obtain ⟨kept, hkept, hend⟩ := ih (fun hin => hfits (hin.trans ⟨[c], [], by simp⟩)) hbody
    rw [hpass, blockEnd?_cons hhead]
    exact ⟨c :: kept, congrArg (c :: ·) hkept, hend⟩

/-! ### Both passes -/

/-- No block of the pieces has a hidden closing, when a given text follows them. -/
def Clear (next : List Char) : List Piece → Prop
  | [] => True
  | .block body :: rest => ¬ Hidden body (textOf rest ++ next) ∧ Clear next rest
  | _ :: rest => Clear next rest

theorem withoutComments_code {c : Char} {next : List Char} (hfits : (Piece.code c).Fits next) :
    withoutComments (c :: next) = c :: withoutComments next := by
  unfold withoutComments
  rw [withoutLines_cons fun hc => (hfits hc).1]
  refine withoutBlocks_cons fun hc => ?_
  rw [head?_withoutLines]
  · exact (hfits hc).2
  · rintro rest rfl
    exact (hfits hc).1 rfl

theorem withoutComments_line {body next : List Char} (hfits : (Piece.line body).Fits next) :
    withoutComments ('/' :: '/' :: body ++ next) = withoutComments next := by
  unfold withoutComments
  rw [List.cons_append, List.cons_append, withoutLines.eq_2, lineEnd_append hfits.1 hfits.2]

theorem withoutLines_open (cs : List Char) :
    withoutLines ('/' :: '*' :: cs) = '/' :: '*' :: withoutLines cs := by
  rw [withoutLines_cons (by simp), withoutLines_cons (by simp)]

theorem withoutBlocks_open (cs : List Char) :
    withoutBlocks ('/' :: '*' :: cs) =
      match blockEnd? cs with
      | some after => withoutBlocks after
      | none => '/' :: '*' :: cs := by
  rw [withoutBlocks.eq_2]
  split <;> simp_all

theorem withoutComments_block {body next : List Char} (hfits : (Piece.block body).Fits next)
    (hclear : ¬ Hidden body next) :
    withoutComments ((Piece.block body).text ++ next) = withoutComments next := by
  unfold withoutComments
  rw [block_text_append, withoutLines_open, withoutBlocks_open,
    blockEnd?_withoutLines hfits hclear]

/-- A block whose closing is hidden goes on behind its line. -/
theorem withoutComments_hidden {body next : List Char} (hfits : (Piece.block body).Fits next)
    (hhidden : Hidden body next) :
    ∃ kept, withoutComments ((Piece.block body).text ++ next) =
      match blockEnd? (withoutLines (lineEnd next)) with
      | some after => withoutBlocks after
      | none => '/' :: '*' :: kept ++ withoutLines (lineEnd next) := by
  obtain ⟨kept, hkept, hend⟩ := withoutLines_of_hidden hfits hhidden
  refine ⟨kept, ?_⟩
  unfold withoutComments
  rw [block_text_append, withoutLines_open, withoutBlocks_open, hend, hkept]
  rfl

theorem left_cons (p : Piece) (pieces : List Piece) : left (p :: pieces) = p.left ++ left pieces :=
  rfl

/-- Both passes over pieces without hidden closings. -/
theorem withoutComments_append {before pieces : List Piece} (hfits : Fitting (before ++ pieces))
    (hclear : Clear (textOf pieces) before) :
    withoutComments (textOf (before ++ pieces)) = left before ++ withoutComments (textOf pieces) ∧
      Fitting pieces := by
  induction before with
  | nil => exact ⟨rfl, hfits⟩
  | cons p before ih =>
    obtain ⟨hp, hrest⟩ := hfits
    rw [List.cons_append, textOf_cons, left_cons, List.append_assoc]
    cases p with
    | code c =>
      obtain ⟨hpass, hpieces⟩ := ih hrest hclear
      refine ⟨?_, hpieces⟩
      rw [← hpass]
      exact withoutComments_code hp
    | line body =>
      obtain ⟨hpass, hpieces⟩ := ih hrest hclear
      refine ⟨?_, hpieces⟩
      rw [← hpass]
      exact withoutComments_line hp
    | block body =>
      obtain ⟨hblock, hclear⟩ := hclear
      obtain ⟨hpass, hpieces⟩ := ih hrest hclear
      refine ⟨?_, hpieces⟩
      rw [← hpass]
      refine withoutComments_block hp ?_
      rwa [textOf, List.flatMap_append]

/-! ### Calls -/

/-- A call stands outside comments: its characters come one after the other, each of them code. -/
def StandsOutside (pieces : List Piece) (call : Call) : Prop :=
  ∃ before body after, call.Written body ∧ pieces = before ++ body.map Piece.code ++ after

theorem left_append (pieces others : List Piece) :
    left (pieces ++ others) = left pieces ++ left others :=
  List.flatMap_append

theorem left_map_code (cs : List Char) : left (cs.map Piece.code) = cs := by
  induction cs with
  | nil => rfl
  | cons c cs ih => exact congrArg (c :: ·) ih

theorem StandsOutside.stands {pieces : List Piece} {call : Call} (h : StandsOutside pieces call) :
    ∃ place, Stands (left pieces) place call := by
  obtain ⟨before, body, after, hbody, rfl⟩ := h
  refine ⟨(left before).length, body, hbody, left after, ?_⟩
  rw [left_append, left_append, left_map_code, List.append_assoc, List.drop_left]

theorem suffix_of_afterMark? {mark : Char} {cs rest : List Char}
    (h : afterMark? mark cs = some rest) : rest <:+ cs := by
  obtain ⟨gap, -, rfl⟩ := exists_of_afterMark? h
  exact (List.suffix_cons mark rest).trans (List.suffix_append gap _)

theorem suffix_of_word? {cs rest word : List Char} (h : word? cs = some (word, rest)) :
    rest <:+ cs := by
  unfold word? at h
  dsimp only at h
  split at h
  · cases h
  next c inner hc =>
  have hinner : c :: inner <:+ cs := hc ▸ List.dropWhile_suffix _
  split at h
  · split at h
    · next q rest hq =>
      split at h
      · cases h
        have hafter : q :: rest <:+ inner := hq ▸ List.dropWhile_suffix _
        exact (List.suffix_cons q _).trans (hafter.trans ((List.suffix_cons c _).trans hinner))
      · cases h
    · cases h
  · split at h
    · cases h
    · cases h
      exact (List.dropWhile_suffix _).trans hinner

/-- The text after a call of any kind is the end of the text. -/
theorem Call.suffix_of_recognise {k : Call.Kind} {cs rest : List Char} {call : Call}
    (h : k.recognise cs = some (call, rest)) : rest <:+ cs := by
  by_cases hk : k = .setLight
  · subst hk
    simp only [Call.Kind.recognise, Call.Kind.arguments?, bind, Option.bind_eq_some_iff, pure] at h
    obtain ⟨named, hname, opened, hopen, _, ⟨⟨word, worded⟩, hword, heq⟩, closed, hclose, hcall⟩ :=
      h
    cases heq
    cases hcall
    have hnamed : named <:+ cs := afterWord?_eq_some_iff.mp hname ▸ List.suffix_append _ named
    exact (suffix_of_afterMark? hclose).trans ((suffix_of_word? hword).trans
      ((suffix_of_afterMark? hopen).trans hnamed))
  · obtain ⟨-, body, -, rfl⟩ := (Call.Kind.recognise_eq_some_iff hk).mp h
    exact List.suffix_append body rest

/-- What is found is recognised somewhere in the text. -/
theorem exists_recognise_of_mem_scan {k : Call.Kind} {start : Nat} {cs : List Char} {f : Found}
    (hf : f ∈ scan k start cs) :
    ∃ back rest, back <:+ cs ∧ k.recognise back = some (f.call, rest) := by
  fun_induction scan k start cs with
  | case1 => cases hf
  | case2 start c rest call after h stop ih =>
    rcases List.mem_cons.mp hf with rfl | hf
    · exact ⟨_, after, List.suffix_refl _, h⟩
    · obtain ⟨back, more, hback, hcall⟩ := ih hf
      exact ⟨back, more, hback.trans (Call.suffix_of_recognise h), hcall⟩
  | case3 start c rest _ ih =>
    obtain ⟨back, more, hback, hcall⟩ := ih hf
    exact ⟨back, more, hback.trans (List.suffix_cons c rest), hcall⟩

section Commands

variable {α : Type} [Scalar α] {textOrder : Bool} {text : List Char} {commands : List (Command α)}

/-- The commands of a text are those that the calls found in it stand for, in one order or the
other. -/
theorem mem_commands?_iff (h : commands? textOrder text = .ok commands) (command : Command α) :
    command ∈ commands ↔
      ∃ f ∈ found (withoutComments text), f.call.meaning = some command := by
  obtain ⟨emitted, hemitted, hcommands⟩ := Action.bind_eq_ok.mp h
  have horder : commands.Perm (emitted.map Prod.snd) := by
    cases hcommands
    cases textOrder with
    | false => exact .refl _
    | true => exact (List.mergeSort_perm _ _).map _
  rw [horder.mem_iff, map_snd_of_emitted? hemitted]
  simp [commandsOf, places, List.mem_filterMap]

end Commands

/-! ### Texts -/

/-- What the two passes make of a text in which all block comments are closed. If no closing is
hidden, they leave what one scan leaves; the commands then are given by the calls that stand
outside comments, all of them, and by nothing inside. In front of the first closing that is hidden,
they leave the same; from there on the block goes on behind its line, up to the next `*/` there or,
without one, as text. -/
theorem comments_removed {α : Type} [Scalar α] {text : List Char} {pieces : List Piece}
    (h : pieces? text = some pieces) :
    (Clear [] pieces →
      withoutComments text = left pieces ∧
      ∀ textOrder (commands : List (Command α)), commands? textOrder text = .ok commands →
        (∀ call command, StandsOutside pieces call → call.meaning = some command →
          command ∈ commands) ∧
        ∀ command ∈ commands, ∃ (back rest : List Char) (call : Call), back <:+ left pieces ∧
          call.kind.recognise back = some (call, rest) ∧ call.meaning = some command) ∧
    ∀ before body after, pieces = before ++ .block body :: after →
      Clear (textOf (.block body :: after)) before → Hidden body (textOf after) →
      ∃ kept, withoutComments text = left before ++
        match blockEnd? (withoutLines (lineEnd (textOf after))) with
        | some rest => withoutBlocks rest
        | none => '/' :: '*' :: kept ++ withoutLines (lineEnd (textOf after)) := by
  have htext := textOf_of_pieces? h
  have hfits := fitting_of_pieces? h
  refine ⟨fun hclear => ?_, ?_⟩
  · have hleft : withoutComments text = left pieces := by
      rw [← List.append_nil pieces] at hfits
      have hpass := (withoutComments_append hfits hclear).1
      rw [List.append_nil, htext] at hpass
      rw [hpass]
      simp [textOf, withoutComments, withoutLines, withoutBlocks]
    refine ⟨hleft, fun textOrder commands hcommands => ⟨fun call command hout hmeaning => ?_,
      fun command hcommand => ?_⟩⟩
    · obtain ⟨place, hstands⟩ := hout.stands
      rw [← hleft] at hstands
      obtain ⟨f, hf, -, rfl⟩ := exists_mem_found_of_stands hstands
      exact (mem_commands?_iff hcommands command).mpr ⟨f, hf, hmeaning⟩
    · obtain ⟨f, hf, hmeaning⟩ := (mem_commands?_iff hcommands command).mp hcommand
      obtain ⟨k, -, hf⟩ := List.mem_flatMap.mp hf
      obtain ⟨back, rest, hback, hcall⟩ := exists_recognise_of_mem_scan hf
      rw [hleft] at hback
      rw [← kind_of_mem_scan hf] at hcall
      exact ⟨back, rest, f.call, hback, hcall, hmeaning⟩
  · rintro before body after rfl hclear hhidden
    obtain ⟨hpass, hrest⟩ := withoutComments_append hfits hclear
    obtain ⟨kept, hkept⟩ := withoutComments_hidden hrest.1 hhidden
    rw [htext] at hpass
    exact ⟨kept, by rw [hpass, textOf_cons, hkept]⟩

/-- Without a slash there are no comments. -/
theorem fitting_map_code {cs : List Char} (h : '/' ∉ cs) : Fitting (cs.map Piece.code) := by
  induction cs with
  | nil => trivial
  | cons c cs ih =>
    rw [List.mem_cons, not_or] at h
    exact ⟨fun hc => absurd hc.symm h.1, ih h.2⟩

theorem clear_map_code (next cs : List Char) : Clear next (cs.map Piece.code) := by
  induction cs with
  | nil => trivial
  | cons c cs ih => exact ih

theorem openGripper_written : Call.openGripper.Written "robot.openGripper()".toList :=
  ⟨nofun, [], [], nofun, .none nofun, rfl⟩

/-- A call behind a comment that holds another one. -/
theorem comments_removed_behind :
    let text := "/*robot.getDistance()*/robot.openGripper()".toList
    let pieces := Piece.block "robot.getDistance()".toList ::
      "robot.openGripper()".toList.map Piece.code
    pieces? text = some pieces ∧ Clear [] pieces ∧ withoutComments text = left pieces ∧
      ∀ commands : List (Command Float), commands? true text = .ok commands →
        Command.openGripper ∈ commands := by
  intro text pieces
  have hslash : '/' ∉ "robot.getDistance()".toList ++ ['*'] := by decide
  have hblock : ¬ ['*', '/'] <:+: "robot.getDistance()".toList ++ ['*'] :=
    fun hin => hslash (hin.subset (by decide))
  have hpieces : pieces? text = some pieces :=
    pieces?_eq_some_iff.mpr ⟨rfl, hblock, fitting_map_code (by decide)⟩
  have hclear : Clear [] pieces := by
    refine ⟨?_, clear_map_code _ _⟩
    rintro (hnext | ⟨before, after, hbody, -⟩)
    · exact absurd hnext (by decide)
    · rw [hbody] at hslash
      simp at hslash
  obtain ⟨hleft, hcalls⟩ := (comments_removed (α := Float) hpieces).1 hclear
  refine ⟨hpieces, hclear, hleft, fun commands hcommands => ?_⟩
  have hout : StandsOutside pieces .openGripper :=
    ⟨[.block "robot.getDistance()".toList], _, [], openGripper_written, by simp [pieces]⟩
  exact (hcalls true commands hcommands).1 _ _ hout rfl

/-- A text without the letter with which all names start holds no calls. -/
theorem found_eq_nil {cs : List Char} (h : 'r' ∉ cs) : found cs = [] := by
  refine List.eq_nil_iff_forall_not_mem.mpr fun f hf => ?_
  obtain ⟨k, -, hf⟩ := List.mem_flatMap.mp hf
  obtain ⟨back, rest, hback, hcall⟩ := exists_recognise_of_mem_scan hf
  obtain ⟨named, hname, -⟩ := Option.bind_eq_some_iff.mp hcall
  obtain ⟨letters, hletters⟩ := k.exists_name_eq
  rw [afterWord?_eq_some_iff, hletters] at hname
  exact h (hback.subset (hname ▸ List.mem_cons_self))

/-- The closing of the comment goes with the line of the `//` before it, and a call behind it is
lost. -/
theorem call_lost_behind_closing :
    let text := "/* // */robot.openGripper()".toList
    let pieces := Piece.block " // ".toList :: "robot.openGripper()".toList.map Piece.code
    pieces? text = some pieces ∧ StandsOutside pieces .openGripper ∧
      withoutComments text ≠ left pieces ∧
      (commands? false text : Except (Fault Float) (List (Command Float))) = .ok [] := by
  intro text pieces
  have hblock : ¬ ['*', '/'] <:+: " // ".toList ++ ['*'] := by decide
  have hpieces : pieces? text = some pieces :=
    pieces?_eq_some_iff.mpr ⟨rfl, hblock, fitting_map_code (by decide)⟩
  have hlines : withoutLines text = ['/', '*', ' '] := by
    simp [text, withoutLines, lineEnd]
  have htext : withoutComments text = ['/', '*', ' '] := by
    rw [withoutComments, hlines, withoutBlocks_open]
    rfl
  refine ⟨hpieces, ⟨[.block " // ".toList], _, [], openGripper_written, by simp [pieces]⟩, ?_, ?_⟩
  · rw [htext]
    decide
  · unfold commands?
    rw [htext, found_eq_nil (by decide)]
    rfl

end ArmRover.Program
