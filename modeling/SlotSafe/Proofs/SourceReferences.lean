import SlotSafe.Proofs.SourceLines
import SlotSafe.Proofs.WrittenIntegers

/-!
# Which texts write references

A reference is written as three integers with colons between them. **A text is read as a reference
exactly when it has two colons and an integer on each side of them, and every other text is rejected**
(`reads_written`). What an integer is leaves much room (blanks around it, a sign, digits of any script),
but none for a colon (`IsInteger.colon_not_mem`), so the colons of a text are those between the integers
and a reference in plain digits is read as what it is.
-/

namespace SlotSafe

namespace Text

variable {separator : Char} {s : List Char}

/-! ## Parts -/

theorem parts_of_not_mem (h : separator ∉ s) : parts separator s = [s] := by
  induction s with
  | nil => rfl
  | cons c s ih =>
    obtain ⟨hc, hs⟩ := not_or.mp (mt List.mem_cons.mpr h)
    rw [parts, if_neg (Ne.symm hc), ih hs]

theorem parts_append_cons (h : separator ∉ s) (rest : List Char) :
    parts separator (s ++ separator :: rest) = s :: parts separator rest := by
  induction s with
  | nil => rw [List.nil_append, parts, if_pos rfl]
  | cons c s ih =>
    obtain ⟨hc, hs⟩ := not_or.mp (mt List.mem_cons.mpr h)
    rw [List.cons_append, parts, if_neg (Ne.symm hc), ih hs]

/-- No part has a separator in it. -/
theorem not_mem_of_mem_parts {part : List Char} (h : part ∈ parts separator s) : separator ∉ part := by
  induction s generalizing part with
  | nil =>
    obtain rfl := List.mem_singleton.mp h
    exact List.not_mem_nil
  | cons c s ih =>
    unfold parts at h
    split at h
    · obtain rfl | h := List.mem_cons.mp h
      · exact List.not_mem_nil
      · exact ih h
    · next hc =>
      split at h
      · next first more hparts =>
        rw [hparts] at ih
        obtain rfl | h := List.mem_cons.mp h
        · exact List.not_mem_cons_of_ne_of_not_mem (Ne.symm hc) (ih List.mem_cons_self)
        · exact ih (List.mem_cons_of_mem _ h)
      · obtain rfl := List.mem_singleton.mp h
        exact List.not_mem_cons_of_ne_of_not_mem (Ne.symm hc) List.not_mem_nil

/-- **A text has three parts exactly when two separators stand between them** and no other separator is
in the text. -/
theorem parts_eq_three_iff {first second third : List Char} :
    parts separator s = [first, second, third]
      ↔ s = first ++ separator :: (second ++ separator :: third)
        ∧ separator ∉ first ∧ separator ∉ second ∧ separator ∉ third := by
  constructor
  · intro h
    have hjoin := intercalate_parts separator s
    have hnone {part : List Char} (hpart : part ∈ [first, second, third]) : separator ∉ part := by
      rw [← h] at hpart
      exact not_mem_of_mem_parts hpart
    rw [h] at hjoin
    refine ⟨?_, hnone (by simp), hnone (by simp), hnone (by simp)⟩
    rw [← hjoin]
    simp [List.intercalate, List.intersperse]
  · rintro ⟨rfl, hfirst, hsecond, hthird⟩
    rw [parts_append_cons hfirst, parts_append_cons hsecond, parts_of_not_mem hthird]

end Text

namespace Decimal

open Text

/-! ## Integers without colons -/

theorem IsRow.colon_not_mem {s : List Char} {value count : Nat} (h : IsRow s value count) : ':' ∉ s := by
  have hdigit {c : Char} {d : Nat} (hc : decimalDigit? c = some d) : ':' ≠ c := by
    rintro rfl
    cases hc
  induction h with
  | digit hc => simpa using hdigit hc
  | next _ hc ih => simpa using ⟨ih, hdigit hc⟩
  | underscore _ hc ih => simpa using ⟨ih, hdigit hc⟩

theorem IsSign.colon_not_mem {s : List Char} {factor : Int} (h : IsSign s factor) : ':' ∉ s := by
  cases h <;> simp

theorem IsInteger.colon_not_mem {s : List Char} {n : Int} (h : IsInteger s n) : ':' ∉ s := by
  have hblanks {s : List Char} (h : ∀ c ∈ s, isBlank c = true) : ':' ∉ s := fun hcolon =>
    absurd (h ':' hcolon) (by decide)
  obtain ⟨hbefore, hsign, hrow, -, hafter⟩ := h
  simp only [List.mem_append, not_or]
  exact ⟨hblanks hbefore, hsign.colon_not_mem, hrow.colon_not_mem, hblanks hafter⟩

end Decimal

namespace SourceReference

open Decimal

/-- **A text that writes a reference**: three integers with colons between them, and no other colon. -/
def IsWritten (s : String) (r : SourceReference) : Prop :=
  ∃ start length source : List Char,
    s.toList = start ++ ':' :: (length ++ ':' :: source)
      ∧ (':' ∉ start ∧ ':' ∉ length ∧ ':' ∉ source)
      ∧ IsInteger start r.start ∧ IsInteger length r.length ∧ IsInteger source r.source

theorem readPart_eq_ok_iff {part : List Char} {n : Int} :
    readPart part = .ok n ↔ IsInteger part n := by
  rw [← readInteger_eq_ok_iff]
  unfold readPart
  cases readInteger part <;> simp

theorem read_eq_ok_iff {s : String} {r : SourceReference} : read s = .ok r ↔ IsWritten s r := by
  constructor
  · intro h
    unfold read at h
    split at h
    · next start length source hparts =>
      obtain ⟨hs, hcolons⟩ := Text.parts_eq_three_iff.mp hparts
      obtain ⟨a, ha, h⟩ := bind_eq_ok_iff.mp h
      obtain ⟨b, hb, h⟩ := bind_eq_ok_iff.mp h
      obtain ⟨c, hc, h⟩ := bind_eq_ok_iff.mp h
      cases h
      exact ⟨start, length, source, hs, hcolons, readPart_eq_ok_iff.mp ha, readPart_eq_ok_iff.mp hb,
        readPart_eq_ok_iff.mp hc⟩
    · cases h
  · rintro ⟨start, length, source, hs, hcolons, ha, hb, hc⟩
    unfold read
    rw [Text.parts_eq_three_iff.mpr ⟨hs, hcolons⟩]
    simp only [readPart_eq_ok_iff.mpr ha, readPart_eq_ok_iff.mpr hb, readPart_eq_ok_iff.mpr hc]
    rfl

/-- A reference in plain digits. -/
def written (r : SourceReference) : String :=
  toString r.start ++ ":" ++ toString r.length ++ ":" ++ toString r.source

theorem isWritten_written {r : SourceReference} (hstart : isWritable r.start = true)
    (hlength : isWritable r.length = true) (hsource : isWritable r.source = true) :
    IsWritten r.written r := by
  have ha := isInteger_toString hstart
  have hb := isInteger_toString hlength
  have hc := isInteger_toString hsource
  refine ⟨_, _, _, ?_, ⟨ha.colon_not_mem, hb.colon_not_mem, hc.colon_not_mem⟩, ha, hb, hc⟩
  simp [written]

/-- **A text is read as a reference exactly when it writes one, and is rejected otherwise.** The plain
digits of a reference, if they are not too many, are read as that reference. -/
theorem reads_written :
    (∀ s r, read s = .ok r ↔ IsWritten s r)
      ∧ (∀ s, (∀ r, ¬IsWritten s r) → ∃ why, read s = .error (.rejected why))
      ∧ ∀ start length source : Int, isWritable start = true → isWritable length = true →
          isWritable source = true →
          read (toString start ++ ":" ++ toString length ++ ":" ++ toString source)
            = .ok ⟨start, length, source⟩ := by
  refine ⟨fun s r => read_eq_ok_iff, fun s hnone => ?_, fun start length source ha hb hc => ?_⟩
  · cases hread : read s with
    | ok r => exact absurd (read_eq_ok_iff.mp hread) (hnone r)
    | error fault =>
      obtain ⟨why, rfl⟩ := read_failsOnly s fault hread
      exact ⟨why, rfl⟩
  · exact read_eq_ok_iff.mpr (isWritten_written (r := ⟨start, length, source⟩) ha hb hc)

/-- Negative numbers are read, and a text of two integers is not. -/
theorem reads_written_negative :
    (isWritable (-3) = true ∧ isWritable 20 = true ∧ isWritable (-1) = true
        ∧ read "-3:20:-1" = .ok ⟨-3, 20, -1⟩)
      ∧ (∀ r, ¬IsWritten "3:20" r) ∧ ∃ why, read "3:20" = .error (.rejected why) := by
  have hwritable : isWritable (-3) = true ∧ isWritable 20 = true ∧ isWritable (-1) = true := by
    decide +kernel
  have htext : toString (-3 : Int) ++ ":" ++ toString (20 : Int) ++ ":" ++ toString (-1 : Int)
      = "-3:20:-1" := by decide
  have hnone (r : SourceReference) : ¬IsWritten "3:20" r := by
    rw [← reads_written.1]
    exact nofun
  obtain ⟨hstart, hlength, hsource⟩ := hwritable
  refine ⟨⟨hstart, hlength, hsource, ?_⟩, hnone, reads_written.2.1 _ hnone⟩
  rw [← htext]
  exact reads_written.2.2 (-3) 20 (-1) hstart hlength hsource

end SourceReference

end SlotSafe
