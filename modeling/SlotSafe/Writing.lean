/-!
# Writing piece by piece

A document is written from left to right. Where something stands that has no written form the
writing stops, and what came before it has already been put out.
-/

namespace SlotSafe

/-- Why something has no written form. -/
inductive Obstacle where
  /-- A value of a kind that is not written. -/
  | kind
  /-- An integer with more digits than are written. -/
  | digits
  /-- A list or map that holds itself. -/
  | circular
  /-- Lists and maps that lie too deep inside one another. -/
  | depth
  deriving DecidableEq, Repr

/-- What has been put out, and what has stopped the writing, if anything has. -/
structure Writing where
  chars : List Char
  obstacle : Option Obstacle
  deriving DecidableEq, Repr

namespace Writing

/-- Characters that are put out. -/
def say (chars : List Char) : Writing := ⟨chars, none⟩

/-- Something that has no written form. -/
def stop (obstacle : Obstacle) : Writing := ⟨[], some obstacle⟩

/-- Characters that are put out if there are any to put out. -/
def sayIf (chars : Except Obstacle (List Char)) : Writing :=
  match chars with
  | .ok chars => say chars
  | .error obstacle => stop obstacle

/-- Whether the writing came to its end. -/
def complete (w : Writing) : Bool := w.obstacle.isNone

/-- One writing after the other, unless the first stopped. -/
def append (v w : Writing) : Writing :=
  match v.obstacle with
  | none => ⟨v.chars ++ w.chars, w.obstacle⟩
  | some _ => v

instance : Append Writing := ⟨append⟩

@[simp] theorem chars_say (s : List Char) : (say s).chars = s := rfl

@[simp] theorem complete_say (s : List Char) : (say s).complete = true := rfl

@[simp] theorem say_append_say (s t : List Char) : say s ++ say t = say (s ++ t) := rfl

theorem append_assoc (u v w : Writing) : u ++ v ++ w = u ++ (v ++ w) := by
  change append (append u v) w = append u (append v w)
  obtain ⟨s, _ | _⟩ := u <;> obtain ⟨t, _ | _⟩ := v <;> simp [append]

end Writing

end SlotSafe
