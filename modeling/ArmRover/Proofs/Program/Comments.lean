import ArmRover.Program.Comment
import Mathlib.Data.List.Infix

/-!
# The two passes over comments

What each pass does with the first characters of a text, how long a text is afterwards, and the
texts that both passes leave as they are.

* `withoutLines_cons`, `withoutBlocks_cons` — a character that opens no comment.
* `length_withoutComments_le` — no pass makes a text longer.
* `Settled` — texts without comments, `withoutComments_of_settled` — they stay as they are.
-/

namespace ArmRover.Program

/-! ### Marks -/

/-- Two characters at the start of a text. -/
theorem pair_prefix_cons {a b c : Char} {cs : List Char} :
    [a, b] <+: c :: cs ↔ c = a ∧ cs.head? = some b := by
  rw [List.cons_prefix_cons, eq_comm]
  refine and_congr_right fun _ => ?_
  cases cs with
  | nil => exact ⟨fun h => absurd h (by simp), nofun⟩
  | cons d cs => simp [List.cons_prefix_cons, eq_comm]

theorem pair_infix_cons {a b c : Char} {cs : List Char} :
    [a, b] <:+: c :: cs ↔ c = a ∧ cs.head? = some b ∨ [a, b] <:+: cs := by
  rw [List.infix_cons_iff, pair_prefix_cons]

/-! ### One pass over a character -/

theorem withoutLines_cons {c : Char} {cs : List Char} (h : c = '/' → cs.head? ≠ some '/') :
    withoutLines (c :: cs) = c :: withoutLines cs := by
  rw [withoutLines.eq_3]
  rintro rest rfl rfl
  exact h rfl rfl

theorem withoutBlocks_cons {c : Char} {cs : List Char} (h : c = '/' → cs.head? ≠ some '*') :
    withoutBlocks (c :: cs) = c :: withoutBlocks cs := by
  rw [withoutBlocks.eq_3]
  rintro rest rfl rfl
  exact h rfl rfl

theorem blockEnd?_cons {c : Char} {cs : List Char} (h : c = '*' → cs.head? ≠ some '/') :
    blockEnd? (c :: cs) = blockEnd? cs := by
  rw [blockEnd?.eq_3]
  rintro rest rfl rfl
  exact h rfl rfl

/-- The first pass keeps the first character, unless it opens a comment. -/
theorem head?_withoutLines {cs : List Char} (h : ∀ rest, cs ≠ '/' :: '/' :: rest) :
    (withoutLines cs).head? = cs.head? := by
  cases cs with
  | nil => simp [withoutLines]
  | cons c cs =>
    rw [withoutLines_cons]
    · rfl
    · rintro rfl hhead
      obtain ⟨rest, rfl⟩ := List.head?_eq_some_iff.mp hhead
      exact h rest rfl

/-! ### Lengths -/

theorem length_withoutLines_le (cs : List Char) : (withoutLines cs).length ≤ cs.length := by
  fun_induction withoutLines cs with
  | case1 => exact Nat.le_refl 0
  | case2 rest ih =>
    have hend := length_lineEnd_le rest
    simp only [List.length_cons]
    omega
  | case3 c rest _ ih => simpa using ih

theorem length_withoutBlocks_le (cs : List Char) : (withoutBlocks cs).length ≤ cs.length := by
  fun_induction withoutBlocks cs with
  | case1 => exact Nat.le_refl 0
  | case2 rest after h ih =>
    have hend := length_lt_of_blockEnd? h
    simp only [List.length_cons]
    omega
  | case3 rest h => exact Nat.le_refl _
  | case4 c rest _ ih => simpa using ih

theorem length_withoutComments_le (cs : List Char) : (withoutComments cs).length ≤ cs.length :=
  Nat.le_trans (length_withoutBlocks_le _) (length_withoutLines_le cs)

/-! ### Texts that stay as they are -/

/-- No comment is in the text: there is no `//`, and no `/*` with a `*/` behind it. -/
def Settled (cs : List Char) : Prop :=
  ¬ ['/', '/'] <:+: cs ∧ ∀ front back, cs = front ++ '/' :: '*' :: back → ¬ ['*', '/'] <:+: back

theorem withoutLines_of_unmarked {cs : List Char} (h : ¬ ['/', '/'] <:+: cs) :
    withoutLines cs = cs := by
  induction cs with
  | nil => simp [withoutLines]
  | cons c cs ih =>
    rw [pair_infix_cons, not_or, not_and] at h
    rw [withoutLines_cons h.1, ih h.2]

/-- A block has no end exactly if the closing mark does not come. -/
theorem blockEnd?_eq_none_iff {cs : List Char} : blockEnd? cs = none ↔ ¬ ['*', '/'] <:+: cs := by
  fun_induction blockEnd? cs with
  | case1 => simp
  | case2 rest => simp [pair_infix_cons]
  | case3 c rest hopen ih =>
    rw [ih, pair_infix_cons, not_or, iff_and_self]
    rintro - ⟨rfl, hhead⟩
    obtain ⟨tail, rfl⟩ := List.head?_eq_some_iff.mp hhead
    exact hopen tail rfl rfl

theorem withoutBlocks_of_not_closed {cs : List Char}
    (h : ∀ front back, cs = front ++ '/' :: '*' :: back → ¬ ['*', '/'] <:+: back) :
    withoutBlocks cs = cs := by
  fun_induction withoutBlocks cs with
  | case1 => rfl
  | case2 rest after hclosed =>
    have hnone := blockEnd?_eq_none_iff.mpr (h [] rest rfl)
    rw [hclosed] at hnone
    cases hnone
  | case3 => rfl
  | case4 c rest _ ih =>
    congr 1
    apply ih
    intro front back hrest
    exact h (c :: front) back (by rw [hrest]; rfl)

/-- A text without comments is left as it is. -/
theorem withoutComments_of_settled {cs : List Char} (h : Settled cs) : withoutComments cs = cs := by
  unfold withoutComments
  rw [withoutLines_of_unmarked h.1, withoutBlocks_of_not_closed h.2]

/-- Where no slash stands there are no comments. -/
theorem withoutComments_of_not_mem {cs : List Char} (h : '/' ∉ cs) : withoutComments cs = cs := by
  refine withoutComments_of_settled ⟨fun hin => h (hin.subset List.mem_cons_self), ?_⟩
  rintro front back rfl
  simp at h

end ArmRover.Program
