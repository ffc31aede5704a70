/-!
# Line ends

Text files end their lines with a line feed, a carriage return, or one after the other.

* `unifyLines` — the text with a line feed in the place of each line end.
-/

namespace ArmRover.Text

/-- Put a line feed in the place of each line end. -/
def unifyLines : List Char → List Char
  | [] => []
  | '\r' :: '\n' :: rest => '\n' :: unifyLines rest
  | '\r' :: rest => '\n' :: unifyLines rest
  | c :: rest => c :: unifyLines rest

/-- No carriage return is left. -/
theorem not_mem_unifyLines (cs : List Char) : '\r' ∉ unifyLines cs := by
  fun_induction unifyLines cs with
  | case1 => simp
  | case2 rest ih => simp [ih]
  | case3 rest _ ih => simp [ih]
  | case4 c rest _ h ih => simp [ih, Ne.symm h]

end ArmRover.Text
