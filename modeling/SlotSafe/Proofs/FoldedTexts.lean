import Mathlib.Data.List.TakeWhile
import SlotSafe.Yaml.Token.Scalar
import SlotSafe.Yaml.Writer

/-!
# Folded texts are read as they were

A text of printable ASCII is written to YAML without quotes or between single quotes, and where a
line runs past its width a single blank becomes a line end and the indentation of the next line. The
reader finds the same text again (`plainFrom_foldedText`, `quotedFrom_foldedText`).

Both are inductions over the words of the text, and the blanks between two words are the step that
matters: the writer leaves them as they are, or folds them if there is only one
(`foldedText_blanks`), and the reader takes either form for the blanks that were there. A word needs
less. Between quotes it is read character by character, a quote from two. Without quotes it ends at
a colon only where a blank follows the colon, and that is what the choice of quotes has excluded
(`plainWord_word`).
-/

namespace SlotSafe.Yaml

/-! ## Cursors -/

namespace Cursor

variable {c : Cursor} {x : Char} {s t : List Char}

theorem advance_add (c : Cursor) (m n : Nat) : c.advance (m + n) = (c.advance m).advance n := by
  induction m generalizing c with
  | zero => rw [Nat.zero_add]; rfl
  | succ m ih =>
    rw [Nat.succ_add]
    exact ih c.step

theorem rest_step (h : c.rest = x :: s) : c.step.rest = s := by
  unfold step
  rw [h]
  simp only
  split <;> rfl

theorem rest_advance (h : c.rest = s ++ t) : (c.advance s.length).rest = t := by
  induction s generalizing c with
  | nil => exact h
  | cons x s ih => exact ih (rest_step h)

theorem line_le_step (c : Cursor) : c.line ≤ c.step.line := by
  unfold step
  split
  · exact Nat.le_refl _
  · split
    · exact Nat.le_succ _
    · exact Nat.le_refl _

/-- Lines are only ever counted up. -/
theorem line_le_advance (c : Cursor) (n : Nat) : c.line ≤ (c.advance n).line := by
  induction n generalizing c with
  | zero => exact Nat.le_refl _
  | succ n ih => exact (line_le_step c).trans (ih c.step)

end Cursor

/-! ## Printable characters -/

theorem isBreak_of_isPlainChar {c : Char} (h : isPlainChar c = true) : isBreak c = false := by
  simp only [isPlainChar, Bool.and_eq_true, decide_eq_true_eq] at h
  simp only [isBreak, Bool.or_eq_false_iff, beq_eq_false_iff_ne]
  refine ⟨⟨⟨?_, ?_⟩, ?_⟩, ?_⟩
  · rintro rfl
    revert h
    decide
  all_goals omega

theorem isSpace_of_isPlainChar {c : Char} (h : isPlainChar c = true) (hblank : c ≠ ' ') :
    isSpace c = false := by
  unfold isSpace
  rw [isBreak_of_isPlainChar h, beq_eq_false_iff_ne.mpr hblank]
  simp only [Bool.or_false, Bool.false_or, beq_eq_false_iff_ne]
  rintro rfl
  exact absurd h (by decide)

theorem ne_newline_of_isPlainChar {c : Char} (h : isPlainChar c = true) : c ≠ '\n' := by
  rintro rfl
  exact absurd h (by decide)

theorem ne_mark_of_isPlainChar {c : Char} (h : isPlainChar c = true) : c ≠ '\ufeff' := by
  rintro rfl
  exact absurd h (by decide)

namespace Cursor

variable {c : Cursor} {x : Char} {s t : List Char}

theorem step_of_isPlainChar (hx : isPlainChar x = true) (h : c.rest = x :: s) :
    c.step = ⟨s, c.index + 1, c.line, c.column + 1⟩ := by
  unfold step
  rw [h]
  simp only [isBreak_of_isPlainChar hx, beq_eq_false_iff_ne.mpr (ne_mark_of_isPlainChar hx)]
  rfl

/-- **Printable characters are passed in their line.** -/
theorem advance_of_isPlainChar (hs : ∀ x ∈ s, isPlainChar x = true) (h : c.rest = s ++ t) :
    c.advance s.length = ⟨t, c.index + s.length, c.line, c.column + s.length⟩ := by
  induction s generalizing c with
  | nil => cases c; cases h; rfl
  | cons x s ih =>
    rw [List.forall_mem_cons] at hs
    rw [List.length_cons, advance, step_of_isPlainChar hs.1 h, ih hs.2 rfl]
    simp only [Cursor.mk.injEq, true_and]
    omega

theorem step_newline (h : c.rest = '\n' :: s) : c.step = ⟨s, c.index + 1, c.line + 1, 0⟩ := by
  unfold step
  rw [h]
  rfl

theorem isPlainChar_blanks (n : Nat) : ∀ x ∈ List.replicate n ' ', isPlainChar x = true := by
  intro x hx
  rw [List.eq_of_mem_replicate hx]
  decide

/-- **A line end and the blanks after it lead to their column of the next line.** -/
theorem advance_newLine {indent : Nat} (h : c.rest = newLine indent ++ s) :
    c.advance (newLine indent).length
      = ⟨s, c.index + (newLine indent).length, c.line + 1, indent⟩ := by
  have hblanks : (c.step.advance (List.replicate indent ' ').length) = _ :=
    advance_of_isPlainChar (isPlainChar_blanks indent) (rest_step h)
  rw [step_newline h] at hblanks
  rw [newLine, List.length_cons]
  show c.step.advance _ = _
  rw [step_newline h, hblanks, List.length_replicate]
  simp only [Cursor.mk.injEq, true_and]
  omega

end Cursor

/-! ## Blanks and words as they are written -/

section Written

variable {quoted fold : Bool} {indent column : Nat} {before : Option Char}

/-- A character of a word as it is written: a quote stands twice between quotes. -/
def charForm (quoted : Bool) (c : Char) : List Char :=
  if quoted && c == '\'' then [c, c] else [c]

theorem foldedText_char {c : Char} (hblank : c ≠ ' ') (hbreak : c ≠ '\n') (s : List Char) :
    foldedText quoted fold indent column before (c :: s)
      = charForm quoted c
        ++ foldedText quoted fold indent (column + (charForm quoted c).length) (some c) s := by
  rw [foldedText, beq_eq_false_iff_ne.mpr hblank, beq_eq_false_iff_ne.mpr hbreak, charForm]
  simp only [Bool.false_eq_true, if_false]
  split <;> rfl

/-- A word without quotes stands as it is. -/
theorem foldedText_word {w : List Char} (hw : ∀ c ∈ w, isPlainChar c = true ∧ c ≠ ' ')
    (fold : Bool) (indent column : Nat) (before : Option Char) (s : List Char) :
    ∃ column' before', foldedText false fold indent column before (w ++ s)
      = w ++ foldedText false fold indent column' before' s := by
  induction w generalizing column before with
  | nil => exact ⟨column, before, rfl⟩
  | cons c w ih =>
    rw [List.forall_mem_cons] at hw
    obtain ⟨column', before', hword⟩ := ih hw.2 (column + 1) (some c)
    refine ⟨column', before', ?_⟩
    rw [List.cons_append, foldedText_char hw.1.2 (ne_newline_of_isPlainChar hw.1.1)]
    exact congrArg (c :: ·) hword

/-- After a blank no blank stands alone, so none is folded. -/
theorem foldedText_afterBlank (n column : Nat) (s : List Char) :
    foldedText quoted fold indent column (some ' ') (List.replicate n ' ' ++ s)
      = List.replicate n ' ' ++ foldedText quoted fold indent (column + n) (some ' ') s := by
  induction n generalizing column with
  | zero => rfl
  | succ n ih =>
    rw [List.replicate_succ, List.cons_append, foldedText]
    simp only [Option.isSome_some, bne_self_eq_false, Bool.and_false, Bool.false_and,
      Bool.false_eq_true, if_false, beq_self_eq_true, if_true, List.cons_append, ih]
    rw [Nat.add_right_comm, Nat.add_assoc]

/-- **Blanks are written as they are, unless one that is alone becomes a line end.** -/
theorem foldedText_blanks (quoted fold : Bool) (indent column : Nat) (before : Option Char)
    (n : Nat) (s : List Char) :
    ∃ column',
      foldedText quoted fold indent column before (List.replicate (n + 1) ' ' ++ s)
          = List.replicate (n + 1) ' ' ++ foldedText quoted fold indent column' (some ' ') s
        ∨ (fold = true ∧ n = 0 ∧ s ≠ []
          ∧ foldedText quoted fold indent column before (List.replicate (n + 1) ' ' ++ s)
            = newLine indent ++ foldedText quoted fold indent column' (some ' ') s) := by
  rw [List.replicate_succ, List.cons_append, foldedText]
  simp only [beq_self_eq_true, if_true]
  split
  · next hfold =>
    simp only [Bool.and_eq_true, Bool.not_eq_true', List.isEmpty_eq_false_iff, bne_iff_ne] at hfold
    obtain ⟨⟨hfold, ⟨-, hne⟩, halone⟩, -⟩ := hfold
    cases n with
    | zero => exact ⟨indent, .inr ⟨hfold, rfl, hne, rfl⟩⟩
    | succ n => exact absurd rfl halone
  · exact ⟨column + 1 + n, .inl (congrArg (' ' :: ·) (foldedText_afterBlank n (column + 1) s))⟩

/-- What is written is printable, but for the line ends where lines are folded. -/
theorem isPlainChar_of_mem_foldedText {s : List Char} (hs : ∀ c ∈ s, isPlainChar c = true)
    {x : Char} (hx : x ∈ foldedText quoted fold indent column before s) :
    isPlainChar x = true ∨ (fold = true ∧ x = '\n') := by
  induction s generalizing column before with
  | nil => exact absurd hx List.not_mem_nil
  | cons c s ih =>
    rw [List.forall_mem_cons] at hs
    have hbreak := beq_eq_false_iff_ne.mpr (ne_newline_of_isPlainChar hs.1)
    rw [foldedText, hbreak] at hx
    simp only [Bool.false_eq_true, if_false] at hx
    split at hx
    · split at hx
      · next hfold =>
        simp only [Bool.and_eq_true] at hfold
        rw [newLine, List.cons_append, List.mem_cons, List.mem_append] at hx
        obtain rfl | hx | hx := hx
        · exact .inr ⟨hfold.1.1, rfl⟩
        · exact .inl (Cursor.isPlainChar_blanks indent x hx)
        · exact ih hs.2 hx
      · obtain rfl | hx := List.mem_cons.mp hx
        · exact .inl hs.1
        · exact ih hs.2 hx
    · split at hx
      · rw [List.mem_cons, List.mem_cons] at hx
        obtain rfl | rfl | hx := hx
        · exact .inl hs.1
        · exact .inl hs.1
        · exact ih hs.2 hx
      · obtain rfl | hx := List.mem_cons.mp hx
        · exact .inl hs.1
        · exact ih hs.2 hx

/-- Without quotes and folds a text stands as it is. -/
theorem foldedText_unfolded {s : List Char} (hs : ∀ c ∈ s, isPlainChar c = true) :
    foldedText false false indent column before s = s := by
  induction s generalizing column before with
  | nil => rfl
  | cons c s ih =>
    rw [List.forall_mem_cons] at hs
    rw [foldedText, beq_eq_false_iff_ne.mpr (ne_newline_of_isPlainChar hs.1)]
    simp only [Bool.false_and, Bool.false_eq_true, if_false, ih hs.2, ite_self]

/-- Every character takes one at least. -/
theorem length_le_foldedText {s : List Char} (hs : ∀ c ∈ s, isPlainChar c = true) :
    s.length ≤ (foldedText quoted fold indent column before s).length := by
  induction s generalizing column before with
  | nil => exact Nat.le_refl _
  | cons c s ih =>
    rw [List.forall_mem_cons] at hs
    by_cases hblank : c = ' '
    · subst hblank
      show (List.replicate (0 + 1) ' ' ++ s).length
        ≤ (foldedText quoted fold indent column before (List.replicate (0 + 1) ' ' ++ s)).length
      obtain ⟨column', hkept | ⟨-, -, -, hfolded⟩⟩ :=
        foldedText_blanks quoted fold indent column before 0 s
      · rw [hkept, List.length_append, List.length_append]
        exact Nat.add_le_add_left (ih hs.2) _
      · have hrest : s.length ≤ (foldedText quoted fold indent column' (some ' ') s).length :=
          ih hs.2
        rw [hfolded, List.length_append, List.length_append, newLine, List.length_cons,
          List.length_replicate]
        omega
    · have hrest : s.length ≤ (foldedText quoted fold indent
          (column + (charForm quoted c).length) (some c) s).length := ih hs.2
      have hform : 0 < (charForm quoted c).length := by
        unfold charForm
        split <;> exact Nat.succ_pos _
      rw [foldedText_char hblank (ne_newline_of_isPlainChar hs.1), List.length_append,
        List.length_cons]
      omega

/-- Where lines are not folded, no character takes more than two. -/
theorem length_foldedText_le {s : List Char} (hs : ∀ c ∈ s, isPlainChar c = true) :
    (foldedText quoted false indent column before s).length ≤ 2 * s.length := by
  induction s generalizing column before with
  | nil => exact Nat.le_refl _
  | cons c s ih =>
    rw [List.forall_mem_cons] at hs
    by_cases hblank : c = ' '
    · have hrest : (foldedText quoted false indent (column + 1) (some c) s).length
          ≤ 2 * s.length := ih hs.2
      rw [foldedText, hblank]
      simp only [beq_self_eq_true, if_true, Bool.false_and, Bool.false_eq_true, if_false]
      rw [hblank] at hrest
      rw [List.length_cons, List.length_cons]
      omega
    · have hrest : (foldedText quoted false indent (column + (charForm quoted c).length) (some c)
          s).length ≤ 2 * s.length := ih hs.2
      have hform : (charForm quoted c).length ≤ 2 := by
        unfold charForm
        split <;> simp
      rw [foldedText_char hblank (ne_newline_of_isPlainChar hs.1), List.length_append,
        List.length_cons]
      omega

end Written

/-! ## Blanks and words as they are read -/

section Read

variable {s t : List Char}

theorem runLength_append {p : Char → Bool} (hs : ∀ c ∈ s, p c = true)
    (ht : ∀ c ∈ t.head?, p c = false) : runLength p (s ++ t) = s.length := by
  unfold runLength
  rw [List.takeWhile_append_of_pos hs]
  cases t with
  | nil => simp
  | cons c t => rw [List.takeWhile_cons, ht c rfl]; simp

theorem runLength_blanks (n : Nat) (hs : s.head? ≠ some ' ') :
    runLength (· == ' ') (List.replicate n ' ' ++ s) = n := by
  rw [runLength_append, List.length_replicate]
  · intro c hc
    rw [List.eq_of_mem_replicate hc]
    rfl
  · rintro c hc
    exact beq_eq_false_iff_ne.mpr fun h => hs (h ▸ hc)

/-- What does not start with a blank or a line end is not passed with those before it. -/
theorem blankLines_of_head? (h : ∀ c ∈ s.head?, isSpace c = false) :
    blankLines s = ([], 0, false) := by
  cases s with
  | nil => rfl
  | cons c s =>
    have hc := h c rfl
    simp only [isSpace, Bool.or_eq_false_iff] at hc
    rw [blankLines, hc.1.1, hc.2]
    rfl

theorem blankLines_blanks (n : Nat) (h : ∀ c ∈ s.head?, isSpace c = false) :
    blankLines (List.replicate n ' ' ++ s) = ([], n, false) := by
  induction n with
  | zero => exact blankLines_of_head? h
  | succ n ih => rw [List.replicate_succ, List.cons_append, blankLines, ih]; rfl

theorem atSeparator_blank (s : List Char) : atSeparator (' ' :: s) = false := by
  unfold atSeparator atMark
  cases s with
  | nil => rfl
  | cons a s => cases s <;> rfl

theorem atSeparator_blanks {n : Nat} (hn : 0 < n) (s : List Char) :
    atSeparator (List.replicate n ' ' ++ s) = false := by
  obtain ⟨n, rfl⟩ := Nat.exists_eq_succ_of_ne_zero (Nat.ne_of_gt hn)
  exact atSeparator_blank _

theorem atSeparator_of_atSeparatorMarks {x : Char} (hs : atSeparatorMarks s = false)
    (hx : x ≠ '-' ∧ x ≠ '.') (t : List Char) : atSeparator (s ++ x :: t) = false := by
  simp only [atSeparatorMarks, Bool.or_eq_false_iff] at hs
  have htake : ∀ mark, x ≠ mark → (s.take 3 == [mark, mark, mark]) = false →
      ((s ++ x :: t).take 3 == [mark, mark, mark]) = false := by
    intro mark hmark hs
    match s with
    | [] => simp [hmark]
    | [a] => simp [hmark]
    | [a, b] => simp [hmark]
    | a :: b :: c :: s => exact hs
  rw [atSeparator, atMark, atMark, htake '-' hx.1 hs.1, htake '.' hx.2 hs.2]
  rfl

theorem passBreak_of_head? {c : Cursor} (h : ∀ x ∈ c.rest.head?, isSpace x = false) :
    c.passBreak = (none, c) := by
  unfold Cursor.passBreak
  split
  · next x s hrest =>
    have hx := h x (by rw [hrest]; rfl)
    rw [isSpace, Bool.or_eq_false_iff] at hx
    rw [hx.2]
    rfl
  · rfl

theorem passBreak_newline {c : Cursor} (h : c.rest = '\n' :: s) :
    c.passBreak = (some '\n', c.step) := by
  unfold Cursor.passBreak
  rw [h]
  rfl

theorem head?_ne_blank (h : ∀ c ∈ s.head?, isSpace c = false) : s.head? ≠ some ' ' :=
  fun hblank => absurd (h ' ' hblank) (by decide)

/-- Blanks in a line stand for themselves. -/
theorem plainGap_blanks {c : Cursor} (n : Nat) (hrest : c.rest = List.replicate n ' ' ++ s)
    (hs : ∀ x ∈ s.head?, isSpace x = false) :
    plainGap c = (List.replicate n ' ', c.advance n, false) := by
  have hnext : (c.advance n).rest = s := by
    have hpass := Cursor.rest_advance hrest
    rwa [List.length_replicate] at hpass
  have htake : (List.replicate n ' ' ++ s).take n = List.replicate n ' ' :=
    List.take_left' List.length_replicate
  unfold plainGap
  simp only [hrest, runLength_blanks n (head?_ne_blank hs), htake]
  rw [passBreak_of_head? (hnext ▸ hs)]

/-- **A line end stands for a blank**, unless a separator of documents follows it. -/
theorem plainGap_newLine {c : Cursor} {k : Nat} (hrest : c.rest = newLine k ++ s)
    (hs : ∀ x ∈ s.head?, isSpace x = false)
    (hseparator : atSeparator (List.replicate k ' ' ++ s) = false) :
    plainGap c = ([' '], c.advance (newLine k).length, true) := by
  have hlength : (newLine k).length = k + 1 := by simp [newLine]
  have hstep : c.step.rest = List.replicate k ' ' ++ s := Cursor.rest_step hrest
  have hrun : runLength (· == ' ') (newLine k ++ s) = 0 := rfl
  unfold plainGap
  simp only [hrest, hrun, Cursor.advance, List.take_zero]
  rw [passBreak_newline hrest]
  simp only [hstep, hseparator, blankLines_blanks k hs]
  rw [hlength]
  rfl

/-! ## Without quotes -/

/-- What follows a text that may go on without quotes does not depend on what stands before. -/
theorem continuesBare_word {w : List Char} (hw : ' ' ∉ w) (hne : w ≠ []) {afterBlank : Bool}
    (h : continuesBare afterBlank (w ++ s) = true) : continuesBare false s = true := by
  induction w generalizing afterBlank with
  | nil => exact absurd rfl hne
  | cons c w ih =>
    rw [List.mem_cons, not_or] at hw
    rw [List.cons_append, continuesBare, beq_eq_false_iff_ne.mpr (Ne.symm hw.1)] at h
    rw [Bool.and_eq_true] at h
    cases w with
    | nil => exact h.2
    | cons d w => exact ih hw.2 (List.cons_ne_nil _ _) h.2

theorem continuesBare_blanks (n : Nat) {afterBlank : Bool}
    (h : continuesBare afterBlank (List.replicate (n + 1) ' ' ++ s) = true) :
    continuesBare true s = true := by
  induction n generalizing afterBlank with
  | zero =>
    rw [show List.replicate 1 ' ' = [' '] from rfl, List.cons_append, continuesBare,
      Bool.and_eq_true] at h
    exact h.2
  | succ n ih =>
    rw [List.replicate_succ, List.cons_append, continuesBare, Bool.and_eq_true] at h
    exact ih h.2

/-- **A word ends where a blank or a line end follows it**, and not before: the choice of quotes has
excluded a colon at its end. -/
theorem plainWord_word {w : List Char} (hw : ' ' ∉ w) (hs : s = [] ∨ s.head? = some ' ')
    {afterBlank : Bool} (h : continuesBare afterBlank (w ++ s) = true)
    (ht : plainWord false t = 0) : plainWord false (w ++ t) = w.length := by
  induction w generalizing afterBlank with
  | nil => exact ht
  | cons c w ih =>
    rw [List.mem_cons, not_or] at hw
    rw [List.cons_append, continuesBare, Bool.and_eq_true, Bool.and_eq_true, Bool.and_eq_true] at h
    obtain ⟨⟨⟨hplain, hcolon⟩, -⟩, h⟩ := h
    -- a colon is followed by a character of the same word
    have hend : (c == ':' && endsAtColon false (w ++ t)) = false := by
      cases w with
      | nil =>
        have hends : endsWord s = true := by
          unfold endsWord
          obtain rfl | hs := hs
          · rfl
          · rw [hs]; simp
        rw [List.nil_append, hends, Bool.and_true, Bool.not_eq_true'] at hcolon
        rw [hcolon]
        rfl
      | cons d w =>
        rw [List.cons_append, continuesBare, Bool.and_eq_true, Bool.and_eq_true,
          Bool.and_eq_true] at h
        have hd : isSpace d = false :=
          isSpace_of_isPlainChar h.1.1.1 fun hd => hw.2 (hd ▸ List.mem_cons_self)
        rw [List.cons_append, endsAtColon]
        simp only [hd]
        simp
    rw [List.cons_append, plainWord, endsPlainWord, isSpace_of_isPlainChar hplain (Ne.symm hw.1),
      hend, ih hw.2 h]
    rfl

theorem isPlainChar_of_continuesBare {afterBlank : Bool} (h : continuesBare afterBlank s = true) :
    ∀ c ∈ s, isPlainChar c = true := by
  induction s generalizing afterBlank with
  | nil => exact List.forall_mem_nil _
  | cons c s ih =>
    rw [continuesBare, Bool.and_eq_true, Bool.and_eq_true, Bool.and_eq_true] at h
    exact List.forall_mem_cons.mpr ⟨h.1.1.1, ih h.2⟩

theorem exists_blanks (h : s.head? = some ' ') :
    ∃ n s', s = List.replicate (n + 1) ' ' ++ s' ∧ s'.head? ≠ some ' ' := by
  induction s with
  | nil => cases h
  | cons c s ih =>
    obtain rfl := Option.some.inj h
    by_cases hs : s.head? = some ' '
    · obtain ⟨n, s', rfl, hs'⟩ := ih hs
      exact ⟨n + 1, s', rfl, hs'⟩
    · exact ⟨0, s, rfl, hs⟩

theorem exists_word (hne : s ≠ []) (h : s.head? ≠ some ' ') :
    ∃ w s', s = w ++ s' ∧ w ≠ [] ∧ ' ' ∉ w ∧ (s' = [] ∨ s'.head? = some ' ') := by
  induction s with
  | nil => exact absurd rfl hne
  | cons c s ih =>
    have hc : ' ' ∉ [c] := fun hmem => h (by rw [List.mem_singleton.mp hmem]; rfl)
    by_cases hs : s = [] ∨ s.head? = some ' '
    · exact ⟨[c], s, rfl, List.cons_ne_nil _ _, hc, hs⟩
    · rw [not_or] at hs
      obtain ⟨w, s', rfl, -, hw, hs'⟩ := ih hs.1 hs.2
      refine ⟨c :: w, s', rfl, List.cons_ne_nil _ _, fun hmem => ?_, hs'⟩
      obtain rfl | hmem := List.mem_cons.mp hmem
      · exact hc (List.mem_singleton_self _)
      · exact hw hmem

/-- What may go on without quotes after a blank starts with a character that stands as it is. -/
theorem exists_cons_of_continuesBare (h : continuesBare true s = true)
    (hhead : s.head? ≠ some ' ') :
    ∃ x s', s = x :: s' ∧ isSpace x = false ∧ x ≠ '#' ∧ x ≠ '\n' := by
  cases s with
  | nil => exact absurd h (by decide)
  | cons x s' =>
    rw [continuesBare, Bool.and_eq_true, Bool.and_eq_true, Bool.and_eq_true] at h
    obtain ⟨⟨⟨hplain, -⟩, hmark⟩, -⟩ := h
    refine ⟨x, s', rfl, isSpace_of_isPlainChar hplain ?_, ?_, ne_newline_of_isPlainChar hplain⟩
    · rintro rfl
      exact hhead rfl
    · rintro rfl
      exact absurd hmark (by decide)

/-- **The blanks before a word are read back**, whichever way they are written. -/
theorem plainGap_foldedText {fold : Bool} {indent : Nat} {least : Int} {after : List Char}
    (hindent : fold = true → 0 < indent ∧ least ≤ indent) (n column : Nat) (before : Option Char)
    {x : Char} (hspace : isSpace x = false) (hbreak : x ≠ '\n') {c : Cursor}
    (hcolumn : least ≤ c.column)
    (hrest : c.rest
      = foldedText false fold indent column before (List.replicate (n + 1) ' ' ++ x :: s) ++ after) :
    plainWord false c.rest = 0 ∧ ∃ next broken column',
      plainGap c = (List.replicate (n + 1) ' ', next, broken)
      ∧ least ≤ next.column
      ∧ next.rest = foldedText false fold indent column' (some ' ') (x :: s) ++ after
      ∧ next.advance (foldedText false fold indent column' (some ' ') (x :: s)).length
        = c.advance (foldedText false fold indent column before
            (List.replicate (n + 1) ' ' ++ x :: s)).length := by
  have hblank : x ≠ ' ' := by
    rintro rfl
    exact absurd hspace (by decide)
  have hhead : ∀ column', ∀ y ∈ (foldedText false fold indent column' (some ' ') (x :: s)
      ++ after).head?, isSpace y = false := by
    intro column' y hy
    rw [foldedText_char hblank hbreak] at hy
    obtain rfl := Option.some.inj hy
    exact hspace
  obtain ⟨column', hkept | ⟨hfold, rfl, -, hfolded⟩⟩ :=
    foldedText_blanks false fold indent column before n (x :: s)
  · rw [hkept, List.append_assoc] at hrest
    have hpass := Cursor.advance_of_isPlainChar (Cursor.isPlainChar_blanks _) hrest
    rw [List.length_replicate] at hpass
    refine ⟨by rw [hrest]; rfl, _, false, column',
      plainGap_blanks (n + 1) hrest (hhead column'), ?_, ?_, ?_⟩
    · rw [hpass]
      simp only
      omega
    · rw [hpass]
    · rw [hkept, List.length_append, List.length_replicate, ← Cursor.advance_add]
  · rw [hfolded, List.append_assoc] at hrest
    have hpass := Cursor.advance_newLine hrest
    refine ⟨by rw [hrest]; rfl, _, true, column',
      plainGap_newLine hrest (hhead column') (atSeparator_blanks (hindent hfold).1 _), ?_, ?_, ?_⟩
    · rw [hpass]
      exact (hindent hfold).2
    · rw [hpass]
    · rw [hfolded, List.length_append, Cursor.advance_add]

/-- A word is read, and the gap after it tells whether the text goes on. -/
theorem plainFrom_word {w : List Char} (hw : w ≠ []) (hhash : w.head? ≠ some '#')
    (hword : plainWord false (w ++ t) = w.length) {c next : Cursor} (hrest : c.rest = w ++ t)
    {gap' : List Char} {broken' : Bool}
    (hgap : plainGap (c.advance w.length) = (gap', next, broken'))
    (least : Int) (fuel : Nat) (acc gap : List Char) (broken : Bool) :
    plainFrom false least (fuel + 1) acc gap broken c
      = if gap'.isEmpty || next.sees '#' || decide ((next.column : Int) < least) then
          (acc.reverse ++ gap ++ w, next, broken')
        else plainFrom false least fuel (w.reverse ++ (gap.reverse ++ acc)) gap' broken' next := by
  have hsees : c.sees '#' = false := by
    obtain ⟨x, w', rfl⟩ := List.exists_cons_of_ne_nil hw
    unfold Cursor.sees Cursor.peek
    rw [hrest]
    exact beq_eq_false_iff_ne.mpr hhash
  have hlength : w.length ≠ 0 := fun h => hw (List.length_eq_zero_iff.mp h)
  rw [plainFrom, hsees]
  simp only [hrest, hword, List.take_left, hgap, hlength, Bool.false_eq_true, if_false,
    Bool.not_false, Bool.true_and, List.reverse_append, List.reverse_reverse, List.append_assoc]

/-- **A text without quotes is read back**, up to where it is known to stop. The lines after the
first are indented deeper than what holds the text. -/
theorem plainFrom_foldedText (least : Int) {fold : Bool} {indent : Nat} {after gap' : List Char}
    {stop next : Cursor} {broken' : Bool} (hindent : fold = true → 0 < indent ∧ least ≤ indent)
    (hafter : plainWord false after = 0) (hgap : plainGap stop = (gap', next, broken'))
    (hstop : (gap'.isEmpty || next.sees '#' || decide ((next.column : Int) < least)) = true)
    (fuel column : Nat) (before : Option Char) (hs : continuesBare true s = true)
    (hhead : s.head? ≠ some ' ') (hfuel : s.length < fuel) {c : Cursor}
    (hrest : c.rest = foldedText false fold indent column before s ++ after)
    (hcolumn : least ≤ c.column + 1)
    (hto : c.advance (foldedText false fold indent column before s).length = stop)
    (acc gap : List Char) (broken : Bool) :
    plainFrom false least fuel acc gap broken c = (acc.reverse ++ gap ++ s, next, broken') := by
  induction fuel generalizing s column before c acc gap broken with
  | zero => exact absurd hfuel (Nat.not_lt_zero _)
  | succ fuel ih =>
    obtain ⟨x, s', rfl, -, hhash, -⟩ := exists_cons_of_continuesBare hs hhead
    obtain ⟨w, rest, hsplit, hw, hblank, hends⟩ := exists_word (List.cons_ne_nil x s') hhead
    have hwhash : w.head? ≠ some '#' := by
      obtain ⟨y, w', rfl⟩ := List.exists_cons_of_ne_nil hw
      rw [List.head?_cons, ← (List.cons.inj hsplit).1]
      exact fun h => hhash (Option.some.inj h)
    rw [hsplit] at hs hrest hto hfuel ⊢
    have hplain : ∀ c ∈ w, isPlainChar c = true := fun c hc =>
      isPlainChar_of_continuesBare hs c (List.mem_append_left _ hc)
    obtain ⟨column', before', hword⟩ := foldedText_word
      (fun c hc => ⟨hplain c hc, fun h => hblank (h ▸ hc)⟩) fold indent column before rest
    rw [hword, List.append_assoc] at hrest
    rw [hword, List.length_append, Cursor.advance_add] at hto
    have hreads := plainWord_word hblank hends hs (t := foldedText false fold indent column' before'
      rest ++ after)
    obtain rfl | hends := hends
    · -- the last word
      rw [← hto] at hgap
      rw [plainFrom_word hw hwhash (hreads hafter) hrest hgap, hstop, List.append_nil]
      rfl
    · obtain ⟨n, rest, rfl, hhead'⟩ := exists_blanks hends
      have hs' := continuesBare_blanks n (continuesBare_word hblank hw hs)
      obtain ⟨y, rest, rfl, hspace, hhash', hbreak⟩ := exists_cons_of_continuesBare hs' hhead'
      have hpass := Cursor.advance_of_isPlainChar hplain hrest
      have hcolumn' : least ≤ (c.advance w.length).column := by
        have hlength := List.length_pos_iff.mpr hw
        rw [hpass]
        simp only
        omega
      obtain ⟨hno, mid, midBroken, column'', hmid, hmidColumn, hmidRest, hmidTo⟩ :=
        plainGap_foldedText hindent n column' before' hspace hbreak hcolumn' (by rw [hpass])
      have hgoes : ((List.replicate (n + 1) ' ').isEmpty || mid.sees '#'
          || decide ((mid.column : Int) < least)) = false := by
        have hmidSees : mid.sees '#' = false := by
          unfold Cursor.sees Cursor.peek
          rw [hmidRest, foldedText_char (by rintro rfl; exact absurd hspace (by decide)) hbreak]
          exact beq_eq_false_iff_ne.mpr fun h => hhash' (Option.some.inj h)
        rw [hmidSees, decide_eq_false (Int.not_lt.mpr hmidColumn)]
        rfl
      rw [hpass] at hno
      rw [plainFrom_word hw hwhash (hreads hno) hrest hmid, hgoes, if_neg Bool.false_ne_true,
        ih _ _ hs' hhead' (by simp at hfuel ⊢; omega) hmidRest
          (by omega) (hmidTo.trans hto)]
      simp

/-! ## Between single quotes -/

theorem quotedLines_blanks {lineStart : Bool} {n : Nat} (hn : lineStart = false ∨ 0 < n)
    (hs : ∀ c ∈ s.head?, isSpace c = false) :
    quotedLines lineStart (List.replicate n ' ' ++ s) = .ok ([], n) := by
  induction n generalizing lineStart with
  | zero =>
    obtain rfl | hn := hn
    · cases s with
      | nil => rfl
      | cons c s =>
        have hc := hs c rfl
        rw [isSpace, Bool.or_eq_false_iff] at hc
        rw [List.replicate_zero, List.nil_append, quotedLines, hc.1, hc.2]
        rfl
    · exact absurd hn (Nat.lt_irrefl 0)
  | succ n ih =>
    rw [List.replicate_succ, List.cons_append, quotedLines, atSeparator_blank, ih (.inl rfl)]
    simp only [Bool.and_false, Bool.false_eq_true, if_false]
    rfl

theorem quotedGap_blanks {c : Cursor} {x : Char} (n : Nat)
    (hrest : c.rest = List.replicate n ' ' ++ x :: s) (hx : isSpace x = false) :
    quotedGap c = .ok (List.replicate n ' ', c.advance n) := by
  have hnext : (c.advance n).rest = x :: s := by
    have hpass := Cursor.rest_advance hrest
    rwa [List.length_replicate] at hpass
  have hhead : ∀ y ∈ (c.advance n).rest.head?, isSpace y = false := by
    rw [hnext]
    rintro y hy
    exact Option.some.inj hy ▸ hx
  have hrun : runLength (fun x => x == ' ' || x == '\t') (List.replicate n ' ' ++ x :: s) = n := by
    rw [runLength_append, List.length_replicate]
    · intro c hc
      rw [List.eq_of_mem_replicate hc]
      rfl
    · intro y hy
      rw [isSpace, Bool.or_eq_false_iff] at hx
      exact Option.some.inj hy ▸ hx.1
  have htake : (List.replicate n ' ' ++ x :: s).take n = List.replicate n ' ' :=
    List.take_left' List.length_replicate
  unfold quotedGap
  simp only [hrest, hrun, htake, hnext, List.isEmpty_cons, Bool.false_eq_true, if_false]
  rw [passBreak_of_head? hhead]

theorem quotedGap_newLine {c : Cursor} {k : Nat} (hk : 0 < k) (hrest : c.rest = newLine k ++ s)
    (hs : ∀ x ∈ s.head?, isSpace x = false) :
    quotedGap c = .ok ([' '], c.advance (newLine k).length) := by
  have hlength : (newLine k).length = k + 1 := by simp [newLine]
  have hstep : c.step.rest = List.replicate k ' ' ++ s := Cursor.rest_step hrest
  have hrun : runLength (fun x => x == ' ' || x == '\t') (newLine k ++ s) = 0 := rfl
  have hpresent : (newLine k ++ s).isEmpty = false := rfl
  unfold quotedGap
  simp only [hrest, hrun, Cursor.advance, hpresent, Bool.false_eq_true, if_false]
  rw [passBreak_newline hrest]
  simp only [hstep, quotedLines_blanks (.inr hk) hs]
  rw [hlength]
  rfl

/-- A character of a word is read from its form. -/
theorem quotedFrom_char {x : Char} (hx : isSpace x = false) {c : Cursor}
    (hrest : c.rest = charForm true x ++ t) (fuel : Nat) (acc : List Char) :
    quotedFrom false (fuel + 1) acc c
      = quotedFrom false fuel (x :: acc) (c.advance (charForm true x).length) := by
  unfold charForm at hrest ⊢
  by_cases hquote : x = '\''
  · subst hquote
    rw [quotedFrom, hrest]
    rfl
  · have hbeq := beq_eq_false_iff_ne.mpr hquote
    rw [hbeq] at hrest ⊢
    rw [quotedFrom, hrest]
    simp only [Bool.and_false, Bool.false_eq_true, if_false, List.cons_append, hx, Bool.false_and,
      Bool.not_false, hbeq]
    rfl

/-- Blanks are read at once. -/
theorem quotedFrom_gap {x : Char} (hx : isSpace x = true) {c next : Cursor}
    (hrest : c.rest = x :: t) {gap : List Char}
    (hgap : quotedGap c = .ok (gap, next)) (fuel : Nat) (acc : List Char) :
    quotedFrom false (fuel + 1) acc c = quotedFrom false fuel (gap.reverse ++ acc) next := by
  rw [quotedFrom, hrest]
  simp only [hx, if_true, hgap]
  rfl

/-- Before the closing quote something stands that is no blank. -/
theorem exists_cons_of_foldedText (fold : Bool) (indent column : Nat) (before : Option Char)
    (hs : ∀ c ∈ s, isPlainChar c = true) (hhead : s.head? ≠ some ' ') (after : List Char) :
    ∃ x t, foldedText true fold indent column before s ++ '\'' :: after = x :: t
      ∧ isSpace x = false := by
  cases s with
  | nil => exact ⟨'\'', after, rfl, by decide⟩
  | cons x s =>
    have hx : x ≠ ' ' := fun h => hhead (h ▸ rfl)
    have hplain := hs x List.mem_cons_self
    rw [foldedText_char hx (ne_newline_of_isPlainChar hplain), charForm]
    split
    · exact ⟨x, _, rfl, isSpace_of_isPlainChar hplain hx⟩
    · exact ⟨x, _, rfl, isSpace_of_isPlainChar hplain hx⟩

/-- **A text between single quotes is read back**, up to the quote that ends it. -/
theorem quotedFrom_foldedText {fold : Bool} {indent : Nat} {after : List Char}
    (hindent : fold = true → 0 < indent) (hafter : after.head? ≠ some '\'') (fuel column : Nat)
    (before : Option Char) (hs : ∀ c ∈ s, isPlainChar c = true) (hfuel : s.length < fuel)
    {c : Cursor} (hrest : c.rest = foldedText true fold indent column before s ++ '\'' :: after)
    (acc : List Char) :
    quotedFrom false fuel acc c
      = .ok (acc.reverse ++ s,
          c.advance ((foldedText true fold indent column before s).length + 1)) := by
  induction fuel generalizing s column before c acc with
  | zero => exact absurd hfuel (Nat.not_lt_zero _)
  | succ fuel ih =>
    by_cases hblank : s.head? = some ' '
    · obtain ⟨n, s, rfl, hhead⟩ := exists_blanks hblank
      have hs' : ∀ c ∈ s, isPlainChar c = true := fun c hc => hs c (List.mem_append_right _ hc)
      have hfuel' : s.length < fuel := by
        rw [List.length_append, List.length_replicate] at hfuel
        omega
      obtain ⟨column', hkept | ⟨hfold, rfl, -, hfolded⟩⟩ :=
        foldedText_blanks true fold indent column before n s
      · obtain ⟨x, t, ht, hx⟩ := exists_cons_of_foldedText fold indent column' (some ' ')
          hs' hhead after
        rw [hkept, List.append_assoc] at hrest
        have hnext := Cursor.rest_advance hrest
        rw [ht] at hrest
        rw [List.length_replicate] at hnext
        rw [quotedFrom_gap rfl hrest (quotedGap_blanks (n + 1) hrest hx),
          ih column' _ hs' hfuel' hnext, hkept]
        simp [← Cursor.advance_add, Nat.add_assoc]
      · obtain ⟨x, t, ht, hx⟩ := exists_cons_of_foldedText fold indent column' (some ' ')
          hs' hhead after
        rw [hfolded, List.append_assoc] at hrest
        have hnext := Cursor.rest_advance hrest
        rw [ht] at hrest
        have hheads : ∀ y ∈ (x :: t).head?, isSpace y = false := fun y hy =>
          Option.some.inj hy ▸ hx
        rw [quotedFrom_gap rfl hrest (quotedGap_newLine (hindent hfold) hrest hheads),
          ih column' _ hs' hfuel' hnext, hfolded]
        simp [← Cursor.advance_add, Nat.add_assoc]
    · cases s with
      | nil =>
        have hrest' : c.rest = '\'' :: after := hrest
        have hend : (after.head? == some '\'') = false := beq_eq_false_iff_ne.mpr hafter
        have hquote : isSpace '\'' = false := rfl
        rw [quotedFrom, hrest']
        simp only [hquote, hend, BEq.rfl, Bool.not_false, Bool.and_self, Bool.false_eq_true,
          if_false, if_true, List.append_nil]
        rfl
      | cons x s =>
        rw [List.forall_mem_cons] at hs
        have hx : x ≠ ' ' := fun h => hblank (h ▸ rfl)
        have hform : foldedText true fold indent column before (x :: s) = _ :=
          foldedText_char hx (ne_newline_of_isPlainChar hs.1) s
        rw [hform, List.append_assoc] at hrest
        rw [quotedFrom_char (isSpace_of_isPlainChar hs.1 hx) hrest,
          ih _ _ hs.2 (Nat.lt_of_succ_lt_succ hfuel) (Cursor.rest_advance hrest), hform]
        simp [← Cursor.advance_add, Nat.add_assoc]

end Read

end SlotSafe.Yaml
