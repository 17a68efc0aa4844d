/-!
# Type identifiers and type keys

The compiler names a type by an identifier in which parentheses and commas are spelled with `_` and
`$`: an opening parenthesis is `$_`, a closing one `_$`, and a comma `_$_`. The type key is the
identifier with parentheses and commas restored.

The spellings overlap, so a run of `_` and `$` can be cut into them in more than one way, or in
none. A spelling is decoded only where what is left of its run is a row of spellings again. Where
both a comma and a closing parenthesis could be read, the comma is.
-/

namespace SlotSafe.TypeKey

/-- Whether a character can be part of a spelling. -/
def isMark (c : Char) : Bool := c == '_' || c == '$'

/-- For a text, the text without its first character and the text without its first two: whether the
run of marks at the front of each is a row of spellings. -/
def closings : List Char → Bool × Bool × Bool
  | [] => (true, true, true)
  | c :: rest =>
    let (here, one, two) := closings rest
    let row := match c, rest with
      | '$', '_' :: _ => one
      | '_', '$' :: '_' :: _ => two || one
      | '_', '$' :: _ => one
      | c, _ => !isMark c
    (row, here, one)

/-- Whether the run of marks at the front of a text is a row of spellings. -/
def closes (s : List Char) : Bool := (closings s).1

/-- Restores the parentheses and commas of an identifier. -/
def decodeChars : List Char → List Char
  | '$' :: '_' :: rest =>
    if closes rest then '(' :: decodeChars rest else '$' :: decodeChars ('_' :: rest)
  | '_' :: '$' :: '_' :: rest =>
    if closes rest then ',' :: decodeChars rest
    else if closes ('_' :: rest) then ')' :: decodeChars ('_' :: rest)
    else '_' :: decodeChars ('$' :: '_' :: rest)
  | '_' :: '$' :: rest =>
    if closes rest then ')' :: decodeChars rest else '_' :: decodeChars ('$' :: rest)
  | c :: rest => c :: decodeChars rest
  | [] => []

/-- The spelling of a character in an identifier. -/
def encodeChar (c : Char) : List Char :=
  if c = '(' then ['$', '_']
  else if c = ')' then ['_', '$']
  else if c = ',' then ['_', '$', '_']
  else [c]

/-- Spells the parentheses and commas of a key. -/
def encodeChars (s : List Char) : List Char := s.flatMap encodeChar

/-- The type key of a compiler's type identifier. -/
def decode (identifier : String) : String := String.ofList (decodeChars identifier.toList)

/-- The identifier of a type key. -/
def encode (key : String) : String := String.ofList (encodeChars key.toList)

/-! ## When a run of marks is a row of spellings -/

theorem closings_eq (s : List Char) :
    closings s = (closes s, closes s.tail, closes s.tail.tail) := by
  cases s with
  | nil => rfl
  | cons c rest =>
    cases rest with
    | nil => simp [closes, closings]
    | cons d rest => simp [closes, closings]

@[simp] theorem closes_nil : closes [] = true := rfl

theorem closes_opening (s : List Char) : closes ('$' :: '_' :: s) = closes s := by
  rw [closes, closings, closings_eq]
  rfl

theorem closes_comma (s : List Char) :
    closes ('_' :: '$' :: '_' :: s) = (closes s || closes ('_' :: s)) := by
  rw [closes, closings, closings_eq]
  rfl

theorem closes_closing {s : List Char} (h : s.head? ≠ some '_') :
    closes ('_' :: '$' :: s) = closes s := by
  rw [closes, closings, closings_eq]
  cases s with
  | nil => rfl
  | cons c rest =>
    have : c ≠ '_' := by simpa using h
    simp [this]

theorem closes_of_not_isMark {c : Char} (h : isMark c = false) (s : List Char) :
    closes (c :: s) = true := by
  have hne : c ≠ '_' ∧ c ≠ '$' := by simpa [isMark] using h
  rw [closes, closings, closings_eq]
  dsimp only
  split
  · exact absurd rfl hne.2
  · exact absurd rfl hne.1
  · exact absurd rfl hne.1
  · exact congrArg not h

end SlotSafe.TypeKey
