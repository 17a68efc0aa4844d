/-!
# Parts of a text

A text is cut at every occurrence of a separator. There is always one part more than there are
separators, and joining the parts gives the text back. A text is cut into pieces of one length for
lines of a fixed width.
-/

namespace SlotSafe.Text

/-- The parts of a text between separators. -/
def parts (separator : Char) : List Char → List (List Char)
  | [] => [[]]
  | c :: rest =>
    if c = separator then [] :: parts separator rest
    else match parts separator rest with
      | part :: more => (c :: part) :: more
      | [] => [[c]]

/-- The pieces of a sequence that have a given length, the last one possibly shorter; `fuel` bounds
their number. -/
def chunksUpTo {α : Type} (length : Nat) : (fuel : Nat) → List α → List (List α)
  | 0, _ => []
  | _, [] => []
  | fuel + 1, s => s.take length :: chunksUpTo length fuel (s.drop length)

/-- The pieces of a sequence that have a given length, the last one possibly shorter. -/
def chunks {α : Type} (length : Nat) (s : List α) : List (List α) := chunksUpTo length s.length s

theorem length_parts (separator : Char) (s : List Char) :
    (parts separator s).length = s.count separator + 1 := by
  induction s with
  | nil => rfl
  | cons c rest ih =>
    unfold parts
    split
    · next h => simp [h, ih]
    · next h =>
      rw [List.count_cons_of_ne (by simpa using h), ← ih]
      split <;> simp_all

theorem intercalate_parts (separator : Char) (s : List Char) :
    [separator].intercalate (parts separator s) = s := by
  induction s with
  | nil => rfl
  | cons c rest ih =>
    unfold parts
    have h := length_parts separator rest
    cases hp : parts separator rest with
    | nil => simp [hp] at h
    | cons part more =>
      rw [hp] at ih
      split
      · next hc => simp [List.intercalate, List.intersperse, hc, ← ih]
      · cases more <;> simp_all [List.intercalate, List.intersperse]

end SlotSafe.Text
