/-!
# Comments

Program text may hold two kinds of comments: from `//` to the end of the line, and from `/*` to
the next `*/`. They are taken out in two passes, line comments first.

* `withoutLines`, `withoutBlocks` — the two passes.
* `withoutComments` — both.
-/

namespace ArmRover.Program

/-- The text from the end of the current line on. -/
def lineEnd (cs : List Char) : List Char := cs.dropWhile (· != '\n')

theorem length_lineEnd_le (cs : List Char) : (lineEnd cs).length ≤ cs.length :=
  (List.dropWhile_sublist _).length_le

/-- The text without comments that end with their line. The line break stays. -/
def withoutLines : List Char → List Char
  | [] => []
  | '/' :: '/' :: rest => withoutLines (lineEnd rest)
  | c :: rest => c :: withoutLines rest
termination_by cs => cs.length
decreasing_by
  · have := length_lineEnd_le rest
    simp only [List.length_cons]
    omega
  · simp

/-- The text after the first `*/`, if there is one. -/
def blockEnd? : List Char → Option (List Char)
  | [] => none
  | '*' :: '/' :: rest => some rest
  | _ :: rest => blockEnd? rest

theorem length_lt_of_blockEnd? {cs rest : List Char} (h : blockEnd? cs = some rest) :
    rest.length < cs.length := by
  fun_induction blockEnd? cs with
  | case1 => simp at h
  | case2 r =>
    cases h
    simp only [List.length_cons]
    omega
  | case3 c r _ ih =>
    have := ih h
    simp only [List.length_cons]
    omega

/-- The text without block comments. The opening of a block that is never closed stays, and so
does all that follows it. -/
def withoutBlocks : List Char → List Char
  | [] => []
  | '/' :: '*' :: rest =>
    match _closed : blockEnd? rest with
    | some after => withoutBlocks after
    | none => '/' :: '*' :: rest
  | c :: rest => c :: withoutBlocks rest
termination_by cs => cs.length
decreasing_by
  · have := length_lt_of_blockEnd? _closed
    simp only [List.length_cons]
    omega
  · simp

/-- Program text without its comments. -/
def withoutComments (cs : List Char) : List Char := withoutBlocks (withoutLines cs)

end ArmRover.Program
