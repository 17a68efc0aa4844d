/-!
# Places in a YAML text

A cursor is a place in a text: the characters that are left, and how many characters, lines and
columns lie before them. The lines of the text are ended by single line feeds, by the next-line
character or by the line and paragraph separators.
-/

namespace SlotSafe.Yaml

/-- Whether a character ends a line. -/
def isBreak (c : Char) : Bool :=
  c == '\n' || c.toNat == 0x85 || c.toNat == 0x2028 || c.toNat == 0x2029

/-- What a line end stands for inside a text. -/
def breakChar (c : Char) : Char := if c.toNat == 0x85 then '\n' else c

/-- Whether a character is a blank or ends a line. -/
def isSpace (c : Char) : Bool := c == ' ' || c == '\t' || isBreak c

/-- Whether what is left begins with a blank or a line end, or nothing is left. -/
def atSpace (s : List Char) : Bool :=
  match s with
  | [] => true
  | c :: _ => isSpace c

/-- Whether what is left begins with a line end, or nothing is left. -/
def atBreak (s : List Char) : Bool :=
  match s with
  | [] => true
  | c :: _ => isBreak c

/-- Whether what is left begins with a blank that is no tab, with a line end, or nothing is left. -/
def atSpaceOrBreak (s : List Char) : Bool :=
  match s with
  | [] => true
  | c :: _ => c == ' ' || isBreak c

/-- Whether what is left begins with three equal marks and a space, as the start of a document. -/
def atMark (mark : Char) (s : List Char) : Bool :=
  s.take 3 == [mark, mark, mark] && atSpace (s.drop 3)

/-- Whether what is left begins with a line that separates documents. -/
def atSeparator (s : List Char) : Bool := atMark '-' s || atMark '.' s

/-- Whether a character may stand in a name. -/
def isNameChar (c : Char) : Bool := c.isAlphanum || c == '-' || c == '_'

/-- The number of characters at the front that have a property. -/
def runLength (p : Char → Bool) (s : List Char) : Nat := (s.takeWhile p).length

/-- A place in a text. -/
structure Cursor where
  rest : List Char
  index : Nat
  line : Nat
  column : Nat

namespace Cursor

/-- The start of a text. -/
def start (s : List Char) : Cursor := ⟨s, 0, 0, 0⟩

/-- Passes one character. A byte order mark takes no column. -/
def step (c : Cursor) : Cursor :=
  match c.rest with
  | [] => c
  | x :: rest =>
    if isBreak x then ⟨rest, c.index + 1, c.line + 1, 0⟩
    else ⟨rest, c.index + 1, c.line, if x == '\ufeff' then c.column else c.column + 1⟩

/-- Passes some characters. -/
def advance (c : Cursor) : Nat → Cursor
  | 0 => c
  | n + 1 => c.step.advance n

/-- Passes the characters at the front that have a property. -/
def skip (c : Cursor) (p : Char → Bool) : Cursor := c.advance (runLength p c.rest)

/-- The next character. -/
def peek (c : Cursor) : Option Char := c.rest.head?

/-- The character after some others. -/
def peekAt (c : Cursor) (n : Nat) : Option Char := (c.rest.drop n).head?

/-- Whether the next character is the given one. -/
def sees (c : Cursor) (x : Char) : Bool := c.peek == some x

/-- Passes a line end, if one is next, and tells what it stands for. -/
def passBreak (c : Cursor) : Option Char × Cursor :=
  match c.rest with
  | x :: _ => if isBreak x then (some (breakChar x), c.step) else (none, c)
  | [] => (none, c)

end Cursor

end SlotSafe.Yaml
