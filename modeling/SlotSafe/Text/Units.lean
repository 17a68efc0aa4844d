/-!
# Units of sixteen bits

Escapes name characters by units of sixteen bits: most characters by one unit, and those past the
first 65536 by a pair of surrogates, which are no characters themselves.
-/

namespace SlotSafe.Text

/-- The units of a character. -/
def units (c : Char) : List Nat :=
  let n := c.toNat
  if n < 0x10000 then [n]
  else [0xd800 + (n - 0x10000) / 0x400, 0xdc00 + (n - 0x10000) % 0x400]

/-- Whether a unit is the first of a pair. -/
def isHighUnit (n : Nat) : Bool := 0xd800 ≤ n && n < 0xdc00

/-- Whether a unit is the second of a pair. -/
def isLowUnit (n : Nat) : Bool := 0xdc00 ≤ n && n < 0xe000

/-- Whether a unit is half of a pair, and no character by itself. -/
def isSurrogateUnit (n : Nat) : Bool := isHighUnit n || isLowUnit n

/-- The character of a pair of units. -/
def charOfPair (high low : Nat) : Char :=
  Char.ofNat (0x10000 + (high - 0xd800) * 0x400 + (low - 0xdc00))

end SlotSafe.Text
