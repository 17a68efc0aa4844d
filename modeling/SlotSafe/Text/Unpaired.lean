import SlotSafe.Text.Quoted
import SlotSafe.Text.Units

/-!
# Texts with surrogates in them

An escape can name a surrogate without its partner. What is read then is no row of characters but one
of points, of which some are surrogates. It can be kept, shown and escaped again, but it has no form in
UTF-8, and **whoever asks for its octets is told where its first surrogates stand** (`Unpaired.offset`,
`Unpaired.count`).
-/

namespace SlotSafe.Text

/-- Half of a pair of units, without the other half. -/
structure Surrogate where
  unit : Nat
  isSurrogate : isSurrogateUnit unit = true
  deriving DecidableEq, Repr

/-- What can be read as one: a character, or a surrogate. -/
inductive Point where
  | char (c : Char)
  | surrogate (s : Surrogate)
  deriving DecidableEq, Repr

namespace Point

/-- The point of a number that stands alone. -/
def ofUnit (n : Nat) : Point :=
  if h : isSurrogateUnit n = true then .surrogate ⟨n, h⟩ else .char (Char.ofNat n)

/-- A point as a character, the replacement character taking the place of a surrogate. -/
def replaced : Point → Char
  | char c => c
  | surrogate _ => '\ufffd'

/-- Whether a point is a surrogate. -/
def isSurrogate : Point → Bool
  | char _ => false
  | surrogate _ => true

/-- A point as it is shown between the given quotes. -/
def shown (quote : Char) : Point → List Char
  | char c => showChar quote c
  | surrogate s => '\\' :: 'u' :: hex 4 s.unit

end Point

/-- **A text with a surrogate in it**: the characters before the first one, and what follows it. -/
structure Unpaired where
  before : List Char
  first : Surrogate
  after : List Point
  deriving DecidableEq, Repr

namespace Unpaired

/-- The points of the text, in their order. -/
def points (u : Unpaired) : List Point := u.before.map .char ++ .surrogate u.first :: u.after

/-- The text with replacement characters in the places of its surrogates. -/
def replaced (u : Unpaired) : List Char := u.points.map Point.replaced

/-- The text between quotes. -/
def quoted (u : Unpaired) : String :=
  let quote := quoteFor u.replaced
  String.ofList (quote :: u.points.flatMap (Point.shown quote) ++ [quote])

/-- How many points stand before the first surrogate. -/
def offset (u : Unpaired) : Nat := u.before.length

/-- How many surrogates stand in a row there. -/
def count (u : Unpaired) : Nat := 1 + (u.after.takeWhile Point.isSurrogate).length

end Unpaired

/-- A row of points as a text, or as one with surrogates in it. -/
def ofPoints : List Point → List Char ⊕ Unpaired
  | [] => .inl []
  | .surrogate s :: rest => .inr ⟨[], s, rest⟩
  | .char c :: rest => match ofPoints rest with
    | .inl s => .inl (c :: s)
    | .inr u => .inr { u with before := c :: u.before }

/-- Characters are a text. -/
@[simp] theorem ofPoints_map_char (s : List Char) : ofPoints (s.map .char) = .inl s := by
  induction s with
  | nil => rfl
  | cons c rest ih => simp only [List.map_cons, ofPoints, ih]

@[simp] theorem ofPoints_points (u : Unpaired) : ofPoints u.points = .inr u := by
  obtain ⟨before, first, after⟩ := u
  induction before with
  | nil => rfl
  | cons c rest ih =>
    unfold Unpaired.points at ih ⊢
    simp only [List.map_cons, List.cons_append, ofPoints, ih]

/-- **A row of points is made of characters, or it is a text with surrogates in it.** -/
theorem exists_chars_or_unpaired (points : List Point) :
    (∃ s : List Char, points = s.map .char) ∨ ∃ u : Unpaired, points = u.points := by
  induction points with
  | nil => exact .inl ⟨[], rfl⟩
  | cons point rest ih =>
    cases point with
    | surrogate s => exact .inr ⟨⟨[], s, rest⟩, rfl⟩
    | char c =>
      obtain ⟨s, rfl⟩ | ⟨u, rfl⟩ := ih
      · exact .inl ⟨c :: s, rfl⟩
      · exact .inr ⟨{ u with before := c :: u.before }, rfl⟩

theorem ofPoints_eq_inr_iff {points : List Point} {u : Unpaired} :
    ofPoints points = .inr u ↔ points = u.points := by
  refine ⟨fun h => ?_, fun h => h ▸ ofPoints_points u⟩
  obtain ⟨s, rfl⟩ | ⟨u', rfl⟩ := exists_chars_or_unpaired points
  · cases (ofPoints_map_char s).symm.trans h
  · exact congrArg Unpaired.points (Sum.inr.inj ((ofPoints_points u').symm.trans h))

theorem replaced_map_char (s : List Char) : (s.map Point.char).map Point.replaced = s := by
  rw [List.map_map]
  exact List.map_id s

end SlotSafe.Text
