/-!
# Line ends

Files end their lines with a line feed, a carriage return, or one after the other. Text is read
with every line ended by a line feed.
-/

namespace SlotSafe.Text

/-- Every line end becomes a line feed. -/
def unifyLineEnds : List Char → List Char
  | '\r' :: '\n' :: rest => '\n' :: unifyLineEnds rest
  | '\r' :: rest => '\n' :: unifyLineEnds rest
  | c :: rest => c :: unifyLineEnds rest
  | [] => []

/-- Text without carriage returns is read as it stands. -/
theorem unifyLineEnds_of_not_mem {s : List Char} (h : '\r' ∉ s) : unifyLineEnds s = s := by
  fun_induction unifyLineEnds s with
  | case1 rest ih => simp at h
  | case2 rest _ ih => simp at h
  | case3 c rest _ _ ih =>
    simp only [List.mem_cons, not_or] at h
    rw [ih h.2]
  | case4 => rfl

end SlotSafe.Text
