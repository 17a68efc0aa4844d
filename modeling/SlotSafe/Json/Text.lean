import SlotSafe.Text.Hex
import SlotSafe.Text.Unpaired

/-!
# Texts in JSON

A text is written between double quotes in ASCII: the quote, the backslash and the common control
characters have short escapes, and every other character outside the printable ASCII range is
written by its units, four hexadecimal digits each.
-/

namespace SlotSafe.Json

open SlotSafe.Text

/-- A unit as an escape. -/
def unitEscape (unit : Nat) : List Char := '\\' :: 'u' :: hex 4 unit

/-- A character inside a written text. -/
def writeChar (c : Char) : List Char :=
  if c = '"' then ['\\', '"']
  else if c = '\\' then ['\\', '\\']
  else if c = '\n' then ['\\', 'n']
  else if c = '\r' then ['\\', 'r']
  else if c = '\t' then ['\\', 't']
  else if c.toNat = 0x08 then ['\\', 'b']
  else if c.toNat = 0x0c then ['\\', 'f']
  else if 0x20 ≤ c.toNat ∧ c.toNat ≤ 0x7e then [c]
  else (units c).flatMap unitEscape

/-- A text between quotes. -/
def writeText (s : List Char) : List Char := '"' :: s.flatMap writeChar ++ ['"']

/-- A point inside a written text. -/
def writePoint : Point → List Char
  | .char c => writeChar c
  | .surrogate s => unitEscape s.unit

/-- A text with surrogates in it between quotes. -/
def writePoints (points : List Point) : List Char := '"' :: points.flatMap writePoint ++ ['"']

end SlotSafe.Json
