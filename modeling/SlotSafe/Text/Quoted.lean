import SlotSafe.Text.Hex
import SlotSafe.Text.Printable

/-!
# Text between quotes

Messages show a text between quotes so that its ends are seen. Single quotes are used, unless the
text holds a single quote and no double one. The quote, the backslash and what cannot be printed
are written as escapes. Octets are shown in the same way.
-/

namespace SlotSafe.Text

/-- The quote that a text is shown in. -/
def quoteFor (s : List Char) : Char :=
  if s.contains '\'' && !s.contains '"' then '"' else '\''

/-- A character as it is shown between the given quotes. -/
def showChar (quote c : Char) : List Char :=
  if c = quote ∨ c = '\\' then ['\\', c]
  else if c = '\n' then ['\\', 'n']
  else if c = '\r' then ['\\', 'r']
  else if c = '\t' then ['\\', 't']
  else if isPrintable c then [c]
  else if c.toNat ≤ 0xff then '\\' :: 'x' :: hex 2 c.toNat
  else if c.toNat ≤ 0xffff then '\\' :: 'u' :: hex 4 c.toNat
  else '\\' :: 'U' :: hex 8 c.toNat

/-- The text between quotes. -/
def quotedChars (s : List Char) : List Char :=
  quoteFor s :: s.flatMap (showChar (quoteFor s)) ++ [quoteFor s]

/-- The text between quotes. -/
def quoted (s : String) : String := String.ofList (quotedChars s.toList)

/-- An octet as it is shown between the given quotes: as a character if it is one of the printable
ASCII range. -/
def showOctet (quote : Char) (b : UInt8) : List Char :=
  let c := Char.ofNat b.toNat
  if b < 0x80 then showChar quote c else '\\' :: 'x' :: hex 2 b.toNat

/-- Octets between quotes, behind the sign that they are octets. -/
def quotedOctets (bytes : List UInt8) : String :=
  let quote := quoteFor (bytes.map fun b => Char.ofNat b.toNat)
  String.ofList ('b' :: quote :: bytes.flatMap (showOctet quote) ++ [quote])

end SlotSafe.Text
