import ArmRover.Proofs.Program.OneScan

/-!
# Texts without comments

What is left of a text without its comments has none, and is left as it is by another run. Taking a
comment out puts characters next to each other that were apart, and this never makes up the mark of
a comment: a line break follows every comment of the first pass, and before and behind a block
stands no slash, since with the slash of the block it would have been a `//` for the first pass. If
blocks were taken out first, one between two slashes would make up a `//`.

* `settled_withoutComments` — what is left has no comments.
* `linePieces`, `blockPieces` — what each pass keeps and what it takes out.
* `Joins`, `not_marker_of_joins_line`, `not_marker_of_joins_block` — the neighbours of what is taken
  out.
* `comments_gone` — all of this together.
-/

namespace ArmRover.Program

/-! ### What is left -/

/-- The first pass leaves no `//`. -/
theorem not_infix_withoutLines (cs : List Char) : ¬ ['/', '/'] <:+: withoutLines cs := by
  fun_induction withoutLines cs with
  | case1 => simp
  | case2 rest ih => exact ih
  | case3 c rest hopen ih =>
    rw [pair_infix_cons, not_or, not_and]
    refine ⟨fun hc hhead => ?_, ih⟩
    rw [head?_withoutLines fun tail heq => hopen _ hc heq] at hhead
    obtain ⟨tail, rfl⟩ := List.head?_eq_some_iff.mp hhead
    exact hopen tail hc rfl

/-- The second pass keeps a first character that opens no block. -/
theorem head?_withoutBlocks {cs : List Char} (h : cs.head? ≠ some '/') :
    (withoutBlocks cs).head? = cs.head? := by
  cases cs with
  | nil => simp [withoutBlocks]
  | cons c cs =>
    rw [withoutBlocks_cons fun hc => absurd (congrArg some hc) h]
    rfl

theorem suffix_of_blockEnd? {cs rest : List Char} (h : blockEnd? cs = some rest) : rest <:+ cs := by
  fun_induction blockEnd? cs with
  | case1 => cases h
  | case2 tail =>
    cases h
    exact ⟨['*', '/'], rfl⟩
  | case3 c tail _ ih => exact (ih h).trans (List.suffix_cons c tail)

/-- The text behind a block has no `//` if the whole text has none. -/
theorem not_infix_of_blockEnd? {rest after : List Char}
    (h : ¬ ['/', '/'] <:+: '/' :: '*' :: rest) (hclosed : blockEnd? rest = some after) :
    ¬ ['/', '/'] <:+: after := by
  intro hin
  have hafter : after <:+ '/' :: '*' :: rest :=
    (suffix_of_blockEnd? hclosed).trans ⟨['/', '*'], rfl⟩
  exact h (hin.trans hafter.isInfix)

/-- The second pass leaves no `//` where there was none. -/
theorem not_infix_withoutBlocks {cs : List Char} (h : ¬ ['/', '/'] <:+: cs) :
    ¬ ['/', '/'] <:+: withoutBlocks cs := by
  fun_induction withoutBlocks cs with
  | case1 => exact h
  | case2 rest after hclosed ih => exact ih (not_infix_of_blockEnd? h hclosed)
  | case3 => exact h
  | case4 c rest _ ih =>
    rw [pair_infix_cons, not_or, not_and] at h ⊢
    refine ⟨fun hc => ?_, ih h.2⟩
    rw [head?_withoutBlocks (h.1 hc)]
    exact h.1 hc

/-- The second pass leaves no block that is closed. -/
theorem not_closed_withoutBlocks {cs : List Char} (h : ¬ ['/', '/'] <:+: cs) :
    ∀ front back, withoutBlocks cs = front ++ '/' :: '*' :: back → ¬ ['*', '/'] <:+: back := by
  fun_induction withoutBlocks cs with
  | case1 => simp
  | case2 rest after hclosed ih => exact ih (not_infix_of_blockEnd? h hclosed)
  | case3 rest hnone =>
    intro front back heq hin
    -- any other opening comes later in the block
    have hback : back <:+ rest := by
      rcases List.cons_eq_append_iff.mp heq with ⟨rfl, htail⟩ | ⟨front, rfl, hrest⟩
      · cases htail
        exact List.suffix_refl _
      · rcases List.cons_eq_append_iff.mp hrest with ⟨rfl, htail⟩ | ⟨front, rfl, rfl⟩
        · cases htail
        · exact ⟨front ++ ['/', '*'], by simp⟩
    exact blockEnd?_eq_none_iff.mp hnone (hin.trans hback.isInfix)
  | case4 c rest hopen ih =>
    rw [pair_infix_cons, not_or, not_and] at h
    intro front back heq
    cases front with
    | nil =>
      obtain ⟨hc, hrest⟩ := List.cons.inj heq
      have hhead := head?_withoutBlocks (h.1 hc)
      rw [hrest] at hhead
      obtain ⟨tail, rfl⟩ := List.head?_eq_some_iff.mp hhead.symm
      exact (hopen tail hc rfl).elim
    | cons d front =>
      exact ih h.2 front back (List.cons.inj heq).2

theorem settled_withoutComments (text : List Char) : Settled (withoutComments text) :=
  ⟨not_infix_withoutBlocks (not_infix_withoutLines text),
    not_closed_withoutBlocks (not_infix_withoutLines text)⟩

/-! ### What is taken out -/

/-- What the first pass keeps of a text, and what it takes out. -/
def linePieces : List Char → List Piece
  | [] => []
  | '/' :: '/' :: rest => .line (rest.takeWhile (· != '\n')) :: linePieces (lineEnd rest)
  | c :: rest => .code c :: linePieces rest
termination_by cs => cs.length
decreasing_by
  · have := length_lineEnd_le rest
    simp only [List.length_cons]
    omega
  · simp

/-- What the second pass keeps of a text, and what it takes out. -/
def blockPieces : List Char → List Piece
  | [] => []
  | '/' :: '*' :: rest =>
    match _closed : closing? rest with
    | some (body, after) => .block body :: blockPieces after
    | none => ('/' :: '*' :: rest).map .code
  | c :: rest => .code c :: blockPieces rest
termination_by cs => cs.length
decreasing_by
  · rw [eq_of_closing? _closed]
    simp only [List.length_cons, List.length_append]
    omega
  · simp

theorem textOf_map_code (cs : List Char) : textOf (cs.map Piece.code) = cs := by
  induction cs with
  | nil => rfl
  | cons c cs ih => exact congrArg (c :: ·) ih

theorem textOf_linePieces (cs : List Char) : textOf (linePieces cs) = cs := by
  fun_induction linePieces cs with
  | case1 => rfl
  | case2 rest ih =>
    rw [textOf_cons, ih]
    exact congrArg ('/' :: '/' :: ·) List.takeWhile_append_dropWhile
  | case3 c rest _ ih =>
    rw [textOf_cons, ih]
    rfl

theorem left_linePieces (cs : List Char) : left (linePieces cs) = withoutLines cs := by
  fun_induction linePieces cs with
  | case1 => simp [left, withoutLines]
  | case2 rest ih =>
    rw [left_cons, ih, withoutLines]
    rfl
  | case3 c rest hopen ih =>
    rw [left_cons, ih, withoutLines.eq_3 c rest hopen]
    rfl

theorem textOf_blockPieces (cs : List Char) : textOf (blockPieces cs) = cs := by
  fun_induction blockPieces cs with
  | case1 => rfl
  | case2 rest body after hclosed ih =>
    rw [textOf_cons, ih, block_text_append, eq_of_closing? hclosed]
  | case3 rest => exact textOf_map_code _
  | case4 c rest _ ih =>
    rw [textOf_cons, ih]
    rfl

theorem blockEnd?_eq_map_closing? (cs : List Char) : blockEnd? cs = (closing? cs).map Prod.snd := by
  fun_induction closing? cs with
  | case1 => rfl
  | case2 rest => rfl
  | case3 c rest hopen ih =>
    rw [blockEnd?.eq_3 c rest hopen, ih, Option.map_map]
    rfl

theorem left_blockPieces (cs : List Char) : left (blockPieces cs) = withoutBlocks cs := by
  fun_induction blockPieces cs with
  | case1 => simp [left, withoutBlocks]
  | case2 rest body after hclosed ih =>
    rw [left_cons, ih, withoutBlocks_open, blockEnd?_eq_map_closing?, hclosed]
    rfl
  | case3 rest hnone =>
    rw [left_map_code, withoutBlocks_open, blockEnd?_eq_map_closing?, hnone]
    rfl
  | case4 c rest hopen ih =>
    rw [left_cons, ih, withoutBlocks.eq_3 c rest hopen]
    rfl

/-! ### The neighbours of what is taken out -/

/-- The two characters, one after the other, open a comment or close one. -/
def Marker (c d : Char) : Prop :=
  [c, d] = ['/', '/'] ∨ [c, d] = ['/', '*'] ∨ [c, d] = ['*', '/']

/-- The two characters are kept, and something between them is taken out, and nothing else is
there. -/
def Joins (pieces : List Piece) (c d : Char) : Prop :=
  ∃ before gone after, pieces = before ++ .code c :: gone ++ .code d :: after ∧
    gone ≠ [] ∧ ∀ p ∈ gone, p.left = []

/-- The first pass takes out all up to a line break. -/
theorem eq_break_of_linePieces {cs : List Char} {before after : List Piece} {p : Piece} {d : Char}
    (hp : p.left = []) (h : linePieces cs = before ++ p :: .code d :: after) : d = '\n' := by
  fun_induction linePieces cs generalizing before with
  | case1 => simp at h
  | case2 rest ih =>
    cases before with
    | nil =>
      have hrest := textOf_linePieces (lineEnd rest)
      rw [(List.cons.inj h).2] at hrest
      have hhead : d ∈ (lineEnd rest).head? := by
        rw [← hrest]
        rfl
      exact head?_lineEnd d hhead
    | cons q before => exact ih (List.cons.inj h).2
  | case3 c rest _ ih =>
    cases before with
    | nil =>
      obtain rfl := (List.cons.inj h).1
      cases hp
    | cons q before => exact ih (List.cons.inj h).2

theorem not_marker_of_joins_line {cs : List Char} {c d : Char} (h : Joins (linePieces cs) c d) :
    ¬ Marker c d := by
  obtain ⟨before, gone, after, heq, hne, hgone⟩ := h
  obtain ⟨gone, p, rfl⟩ := (List.eq_nil_or_concat gone).resolve_left hne
  have hp : p.left = [] := hgone p (by simp)
  have hbreak : d = '\n' := by
    have hpieces : linePieces cs = (before ++ .code c :: gone) ++ p :: .code d :: after := by
      rw [heq]
      simp
    exact eq_break_of_linePieces hp hpieces
  subst hbreak
  simp [Marker]

/-- The second pass takes out blocks only. -/
theorem exists_block_of_mem {cs : List Char} {p : Piece} (h : p ∈ blockPieces cs)
    (hp : p.left = []) : ∃ body, p = .block body := by
  fun_induction blockPieces cs with
  | case1 => cases h
  | case2 rest body after hclosed ih =>
    rcases List.mem_cons.mp h with rfl | h
    · exact ⟨body, rfl⟩
    · exact ih h
  | case3 rest =>
    obtain ⟨c, -, rfl⟩ := List.mem_map.mp h
    cases hp
  | case4 c rest _ ih =>
    rcases List.mem_cons.mp h with rfl | h
    · cases hp
    · exact ih h

theorem textOf_append (pieces others : List Piece) :
    textOf (pieces ++ others) = textOf pieces ++ textOf others :=
  List.flatMap_append

/-- Where there is no `//`, no slash stands before a block and none behind it. -/
theorem not_marker_of_joins_block {cs : List Char} (h : ¬ ['/', '/'] <:+: cs) {c d : Char}
    (hjoins : Joins (blockPieces cs) c d) : ¬ Marker c d := by
  obtain ⟨before, gone, after, heq, hne, hgone⟩ := hjoins
  have hblock : ∀ p ∈ gone, ∃ body, p = .block body := by
    intro p hp
    have hmem : p ∈ blockPieces cs := by
      rw [heq]
      simp [hp]
    exact exists_block_of_mem hmem (hgone p hp)
  have htext := textOf_blockPieces cs
  rw [heq] at htext
  have hfirst : c ≠ '/' := by
    rintro rfl
    obtain ⟨p, gone, rfl⟩ := List.exists_cons_of_ne_nil hne
    obtain ⟨body, rfl⟩ := hblock p List.mem_cons_self
    apply h
    rw [← htext]
    refine ⟨textOf before, '*' :: body ++ ['*', '/'] ++ textOf (gone ++ .code d :: after), ?_⟩
    simp [textOf_append, textOf_cons, Piece.text]
  have hlast : d ≠ '/' := by
    rintro rfl
    obtain ⟨gone, p, rfl⟩ := (List.eq_nil_or_concat gone).resolve_left hne
    obtain ⟨body, rfl⟩ := hblock p (by simp)
    apply h
    rw [← htext]
    refine ⟨textOf (before ++ .code c :: gone) ++ '/' :: '*' :: body ++ ['*'], textOf after, ?_⟩
    simp [textOf_append, textOf_cons, Piece.text]
  simp [Marker, hfirst, hlast]

/-! ### All comments -/

/-- For every text: without its comments it has no `//`, and no `/*` with a `*/` behind it. What
each pass keeps and takes out makes up the text that it is given; what it keeps is the text that it
gives, and where something is taken out, the characters before and behind it make up no mark of a
comment. Another run leaves the text as it is. -/
theorem comments_gone (text : List Char) :
    (¬ ['/', '/'] <:+: withoutComments text ∧ ∀ front back,
        withoutComments text = front ++ '/' :: '*' :: back → ¬ ['*', '/'] <:+: back) ∧
      (textOf (linePieces text) = text ∧ left (linePieces text) = withoutLines text ∧
        ∀ c d, Joins (linePieces text) c d → ¬ Marker c d) ∧
      (textOf (blockPieces (withoutLines text)) = withoutLines text ∧
        left (blockPieces (withoutLines text)) = withoutComments text ∧
        ∀ c d, Joins (blockPieces (withoutLines text)) c d → ¬ Marker c d) ∧
      withoutComments (withoutComments text) = withoutComments text := by
  refine ⟨settled_withoutComments text, ?_, ?_, ?_⟩
  · exact ⟨textOf_linePieces text, left_linePieces text, fun _ _ => not_marker_of_joins_line⟩
  · have hlines := not_infix_withoutLines text
    exact ⟨textOf_blockPieces _, left_blockPieces _, fun _ _ => not_marker_of_joins_block hlines⟩
  · exact withoutComments_of_settled (settled_withoutComments text)

end ArmRover.Program
