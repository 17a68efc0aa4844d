import Mathlib.Algebra.Group.Nat.Defs
import Mathlib.Data.List.Basic
import SlotSafe.Json.Reader

/-!
# Texts come back from JSON

A text that is written between quotes is read as the same text (`readText_writeText`). The reader
goes through it character by character, and the form of a character says enough for that: a
character that has an escape is read back from it, and one that stands for itself is neither a
quote nor a backslash nor a control character (`readsAs_writeChar`).

An escape by a unit is the one that needs a look at what follows: a first surrogate goes with the
second one after it. A character of one unit is no surrogate, so it stands alone whatever follows,
and a pair is written by one character only.

No text that is written holds a surrogate alone. Where the content of a source does, that is told, and
the content is kept as it is (`readContent?_eq_some_iff`).
-/

namespace SlotSafe.Text

/-! ## Hexadecimal digits -/

theorem hexValue?_hexDigit (n : Nat) : hexValue? (hexDigit n) = some (n % 16) := by
  have hdigits : ∀ d < 16, hexValue? (Nat.digitChar d) = some d := by decide
  exact hdigits _ (Nat.mod_lt _ (by decide))

theorem hexNumber?_append (value : Nat) (s t : List Char) :
    hexNumber? value (s ++ t) = (hexNumber? value s).bind fun v => hexNumber? v t := by
  induction s generalizing value with
  | nil => rfl
  | cons c rest ih =>
    show (hexValue? c).bind _ = ((hexValue? c).bind _).bind _
    cases hexValue? c with
    | none => rfl
    | some n => exact ih _

/-- **A number comes back from its digits**, if they are enough. -/
theorem hexNumber?_hex (width value n : Nat) :
    hexNumber? value (hex width n) = some (value * 16 ^ width + n % 16 ^ width) := by
  induction width generalizing n with
  | zero => simp [hex, hexNumber?, Nat.mod_one]
  | succ width ih =>
    rw [hex, hexNumber?_append, ih]
    show (hexValue? (hexDigit n)).bind _ = _
    rw [hexValue?_hexDigit]
    show some _ = some _
    rw [Nat.add_mul, Nat.mul_assoc, ← Nat.pow_succ, Nat.add_assoc, Nat.pow_succ,
      Nat.mul_comm (16 ^ width) 16, Nat.mod_mul, Nat.mul_comm 16 (n / 16 % _), Nat.add_comm (n % 16)]

/-- The digits of a unit are four. -/
theorem exists_hex_four (unit : Nat) : ∃ a b c d, hex 4 unit = [a, b, c, d] :=
  ⟨_, _, _, _, rfl⟩

/-! ## Units -/

/-- No character is a surrogate. -/
theorem not_surrogate (c : Char) : c.toNat < 0xd800 ∨ 0xe000 ≤ c.toNat := by
  obtain h | ⟨h, -⟩ := c.valid
  · exact Or.inl h
  · exact Or.inr h

theorem toNat_lt (c : Char) : c.toNat < 0x110000 := by
  obtain h | ⟨-, h⟩ := c.valid
  · exact Nat.lt_trans h (by decide)
  · exact h

theorem not_isHighUnit_toNat (c : Char) : isHighUnit c.toNat = false := by
  have h := not_surrogate c
  simp only [isHighUnit, Bool.and_eq_false_iff, decide_eq_false_iff_not]
  omega

theorem ofUnit_toNat (c : Char) : Point.ofUnit c.toNat = .char c := by
  have h := not_surrogate c
  have hunit : ¬isSurrogateUnit c.toNat = true := by
    simp only [isSurrogateUnit, isHighUnit, isLowUnit, Bool.or_eq_true, Bool.and_eq_true,
      decide_eq_true_eq]
    omega
  unfold Point.ofUnit
  rw [dif_neg hunit]
  exact congrArg Point.char (Char.ofNat_toNat c)

end SlotSafe.Text

namespace SlotSafe.Json

open SlotSafe.Text

/-- **A form of a character that is read as that character**, whatever follows it, if anything does.
-/
def ReadsAs (form : List Char) (c : Char) : Prop :=
  ∀ start acc next after,
    readPoints start acc (form ++ next :: after) = readPoints start (.char c :: acc) (next :: after)

variable {c : Char}

/-! ## One character -/

theorem readsAs_shortEscape {e : Char} (h : shortEscape? e = some c) (hu : e ≠ 'u') :
    ReadsAs ['\\', e] c := by
  intro start acc next after
  show readPoints start acc ('\\' :: e :: next :: after) = _
  rw [readPoints]
  · simp only [h]
  · rintro rfl
    exact hu rfl

/-- A character that stands for itself. -/
theorem readsAs_self (hquote : c ≠ '"') (hback : c ≠ '\\') (hcontrol : ¬c.toNat < 0x20) :
    ReadsAs [c] c := by
  intro start acc next after
  show readPoints start acc (c :: next :: after) = _
  rw [readPoints.eq_def]
  split
  · next heq => cases heq
  · next heq =>
    cases heq
    exact absurd rfl hquote
  · next heq =>
    cases heq
    exact absurd rfl hback
  · next heq =>
    cases heq
    rw [if_neg hcontrol]

/-- **A character of one unit**, which is no surrogate and so needs no partner. -/
theorem readsAs_unit (c : Char) (h : c.toNat < 0x10000) : ReadsAs (unitEscape c.toNat) c := by
  intro start acc next after
  obtain ⟨d₁, d₂, d₃, d₄, hdigits⟩ := exists_hex_four c.toNat
  have hnumber := hexNumber?_hex 4 0 c.toNat
  have hunit : c.toNat < 16 ^ 4 := h
  rw [hdigits, Nat.mod_eq_of_lt hunit, Nat.zero_mul, Nat.zero_add] at hnumber
  have hchar := ofUnit_toNat c
  rw [unitEscape, hdigits]
  show readPoints start acc ('\\' :: 'u' :: d₁ :: d₂ :: d₃ :: d₄ :: next :: after) = _
  rw [readPoints.eq_def]
  simp only [hnumber, hchar, not_isHighUnit_toNat]
  split
  · next heq => cases heq
  · next heq =>
    rw [heq]
    rfl
  · next heq =>
    cases heq
    rfl

/-- **A character of two units.** -/
theorem readsAs_pair (c : Char) (h : ¬c.toNat < 0x10000) :
    ReadsAs (unitEscape (0xd800 + (c.toNat - 0x10000) / 0x400)
      ++ unitEscape (0xdc00 + (c.toNat - 0x10000) % 0x400)) c := by
  intro start acc next after
  have hrange := toNat_lt c
  generalize hhigh : 0xd800 + (c.toNat - 0x10000) / 0x400 = high
  generalize hlow : 0xdc00 + (c.toNat - 0x10000) % 0x400 = low
  obtain ⟨d₁, d₂, d₃, d₄, hdigits⟩ := exists_hex_four high
  obtain ⟨e₁, e₂, e₃, e₄, hdigits'⟩ := exists_hex_four low
  have hfirst := hexNumber?_hex 4 0 high
  have hsecond := hexNumber?_hex 4 0 low
  rw [hdigits, Nat.mod_eq_of_lt (by omega), Nat.zero_mul, Nat.zero_add] at hfirst
  rw [hdigits', Nat.mod_eq_of_lt (by omega), Nat.zero_mul, Nat.zero_add] at hsecond
  have hishigh : isHighUnit high = true := by
    simp only [isHighUnit, Bool.and_eq_true, decide_eq_true_eq]
    omega
  have hislow : isLowUnit low = true := by
    simp only [isLowUnit, Bool.and_eq_true, decide_eq_true_eq]
    omega
  have hchar : charOfPair high low = c := by
    have hnat : 0x10000 + (high - 0xd800) * 0x400 + (low - 0xdc00) = c.toNat := by omega
    rw [charOfPair, hnat]
    exact Char.ofNat_toNat c
  rw [unitEscape, unitEscape, hdigits, hdigits']
  show readPoints start acc ('\\' :: 'u' :: d₁ :: d₂ :: d₃ :: d₄
    :: '\\' :: 'u' :: e₁ :: e₂ :: e₃ :: e₄ :: next :: after) = _
  rw [readPoints.eq_def]
  simp only [hfirst, hsecond, hishigh, hislow, hchar, if_true]

/-- The characters that follow the backslash in the short escapes that are written. -/
def shortEscapes : List Char := ['"', '\\', 'n', 'r', 't', 'b', 'f']

/-- **A character is written by a short escape, as it is, or by its units.** -/
theorem writeChar_cases (c : Char) :
    (∃ e ∈ shortEscapes, shortEscape? e = some c ∧ writeChar c = ['\\', e])
      ∨ (c ≠ '"' ∧ c ≠ '\\' ∧ (0x20 ≤ c.toNat ∧ c.toNat ≤ 0x7e) ∧ writeChar c = [c])
      ∨ writeChar c = (units c).flatMap unitEscape := by
  have hcontrol : ∀ d : Char, c.toNat = d.toNat → c = d := fun d h => Char.toNat_inj.mp h
  have hshort : ∀ e ∈ shortEscapes, ∀ d, c = d → shortEscape? e = some d →
      ∃ e' ∈ shortEscapes, shortEscape? e' = some c ∧ ['\\', e] = ['\\', e'] := by
    rintro e he d rfl h
    exact ⟨e, he, h, rfl⟩
  unfold writeChar
  split
  · next h => exact Or.inl (hshort _ (by decide) _ h rfl)
  split
  · next h => exact Or.inl (hshort _ (by decide) _ h rfl)
  split
  · next h => exact Or.inl (hshort _ (by decide) _ h rfl)
  split
  · next h => exact Or.inl (hshort _ (by decide) _ h rfl)
  split
  · next h => exact Or.inl (hshort _ (by decide) _ h rfl)
  split
  · next h => exact Or.inl (hshort _ (by decide) _ (hcontrol '\x08' h) rfl)
  split
  · next h => exact Or.inl (hshort _ (by decide) _ (hcontrol '\x0c' h) rfl)
  split
  · next hquote hback _ _ _ _ _ hprinted => exact Or.inr (Or.inl ⟨hquote, hback, hprinted, rfl⟩)
  · exact Or.inr (Or.inr rfl)

/-- **Every character comes back from its form.** -/
theorem readsAs_writeChar (c : Char) : ReadsAs (writeChar c) c := by
  obtain ⟨e, hmem, he, hform⟩ | ⟨hquote, hback, hprinted, hform⟩ | hform := writeChar_cases c
  · have hu : ∀ e ∈ shortEscapes, e ≠ 'u' := List.forall_iff_forall_mem.mp (by decide)
    exact hform ▸ readsAs_shortEscape he (hu e hmem)
  · exact hform ▸ readsAs_self hquote hback (Nat.not_lt.mpr hprinted.1)
  · rw [hform]
    by_cases h : c.toNat < 0x10000
    · simpa [units, h] using readsAs_unit c h
    · simpa [units, h] using readsAs_pair c h

/-! ## A whole text -/

theorem readPoints_flatMap_writeChar (start : Nat) (acc : List Point) (s after : List Char) :
    readPoints start acc (s.flatMap writeChar ++ '"' :: after)
      = .ok (acc.reverse ++ s.map .char, after) := by
  induction s generalizing acc with
  | nil => rw [List.flatMap_nil, List.nil_append, readPoints, List.map_nil, List.append_nil]
  | cons c rest ih =>
    -- something follows each character: at least the closing quote
    obtain ⟨next, more, hmore⟩ : ∃ next more,
        rest.flatMap writeChar ++ '"' :: after = next :: more :=
      List.exists_cons_of_ne_nil (List.append_ne_nil_of_right_ne_nil _ (List.cons_ne_nil _ _))
    rw [List.flatMap_cons, List.append_assoc, hmore, readsAs_writeChar, ← hmore, ih,
      List.reverse_cons, List.append_assoc, List.singleton_append, List.map_cons]

/-- What stands between the quotes of a written text holds no surrogate. -/
theorem readPoints_inside (start : Nat) (s after : List Char) :
    readPoints start [] (s.flatMap writeChar ++ '"' :: after) = .ok (s.map .char, after) :=
  readPoints_flatMap_writeChar start [] s after

theorem writeText_append (s after : List Char) :
    writeText s ++ after = '"' :: (s.flatMap writeChar ++ '"' :: after) := by
  rw [writeText, List.append_assoc, List.cons_append, List.singleton_append]

/-- **A text comes back from between its quotes.** -/
theorem readText_writeText (start : Nat) (s after : List Char) :
    ∃ inside, writeText s ++ after = '"' :: inside
      ∧ readText start inside = .ok (String.ofList s, after) := by
  refine ⟨_, writeText_append s after, ?_⟩
  rw [readText, readPoints_inside]
  show Except.ok (String.ofList ((s.map Point.char).map Point.replaced), after) = _
  rw [replaced_map_char]

/-- A text that is written is one of characters, even where a source has its content. -/
theorem readContent?_writeText (key : String) (s after : List Char) :
    readContent? key (writeText s ++ after) = none := by
  rw [writeText_append, readContent?, readPoints_inside]
  simp only [ofPoints_map_char, ite_self]

/-- **The content of a source is told apart if there are surrogates in it**, and then none of its points
is lost. -/
theorem readContent?_eq_some_iff {s rest : List Char} {u : Unpaired} :
    readContent? "content" ('"' :: s) = some (u, rest)
      ↔ readPoints (s.length + 1) [] s = .ok (u.points, rest) := by
  rw [readContent?, if_pos rfl]
  cases readPoints (s.length + 1) [] s with
  | error stop => simp
  | ok found =>
    obtain ⟨points, left⟩ := found
    rw [Except.ok.injEq, Prod.mk.injEq, ← ofPoints_eq_inr_iff]
    dsimp only
    cases ofPoints points <;> simp

example : readContent? "content" "\"\\ud800\"".toList = some (⟨[], ⟨0xd800, rfl⟩, []⟩, []) := by
  decide +kernel

/-! ## What a text is written in -/

/-- **The characters that JSON is written in**: the printable ASCII characters and the line feed. -/
def IsPlain (c : Char) : Prop := c = '\n' ∨ 0x20 ≤ c.toNat ∧ c.toNat ≤ 0x7e

instance : DecidablePred IsPlain := fun c => inferInstanceAs (Decidable (c = '\n' ∨ _))

theorem isPlain_of_mem_unitEscape {unit : Nat} (h : c ∈ unitEscape unit) : IsPlain c := by
  have hdigits : ∀ d < 16, IsPlain (Nat.digitChar d) := by decide
  have hdigit : ∀ n, IsPlain (hexDigit n) := fun n => hdigits _ (Nat.mod_lt _ (by decide))
  simp only [unitEscape, hex, List.nil_append, List.cons_append, List.mem_cons,
    List.not_mem_nil, or_false] at h
  obtain rfl | rfl | rfl | rfl | rfl | rfl := h
  · decide
  · decide
  all_goals exact hdigit _

theorem isPlain_of_mem_writeChar {c d : Char} (h : c ∈ writeChar d) : IsPlain c := by
  obtain ⟨e, hmem, -, hform⟩ | ⟨-, -, hprinted, hform⟩ | hform := writeChar_cases d
  · have hescapes : ∀ e ∈ shortEscapes, IsPlain e := List.forall_iff_forall_mem.mp (by decide)
    rw [hform, List.mem_pair] at h
    obtain rfl | rfl := h
    · decide
    · exact hescapes c hmem
  · rw [hform, List.mem_singleton] at h
    exact Or.inr (h ▸ hprinted)
  · rw [hform] at h
    obtain ⟨unit, -, hunit⟩ := List.mem_flatMap.mp h
    exact isPlain_of_mem_unitEscape hunit

theorem isPlain_of_mem_writeText {s : List Char} (h : c ∈ writeText s) : IsPlain c := by
  unfold writeText at h
  obtain hmem | hmem := List.mem_append.mp h
  · obtain rfl | hmem := List.mem_cons.mp hmem
    · decide
    · obtain ⟨d, -, hd⟩ := List.mem_flatMap.mp hmem
      exact isPlain_of_mem_writeChar hd
  · rw [List.mem_singleton.mp hmem]
    decide

end SlotSafe.Json
