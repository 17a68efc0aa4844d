/-!
# Hexadecimal digits of fixed width

Escapes name a character by a fixed number of hexadecimal digits.
-/

namespace SlotSafe.Text

/-- A hexadecimal digit, in lower case. -/
def hexDigit (n : Nat) : Char := Nat.digitChar (n % 16)

/-- The last `width` hexadecimal digits of a number, in lower case. -/
def hex : (width : Nat) → Nat → List Char
  | 0, _ => []
  | width + 1, n => hex width (n / 16) ++ [hexDigit n]

/-- The last `width` hexadecimal digits of a number, in upper case. -/
def upperHex (width n : Nat) : List Char := (hex width n).map Char.toUpper

/-- The value of a hexadecimal digit in either case. -/
def hexValue? (c : Char) : Option Nat :=
  let n := c.toNat
  if 0x30 ≤ n ∧ n ≤ 0x39 then some (n - 0x30)
  else if 0x41 ≤ n ∧ n ≤ 0x46 then some (n - 0x41 + 10)
  else if 0x61 ≤ n ∧ n ≤ 0x66 then some (n - 0x61 + 10)
  else none

/-- The number that a row of hexadecimal digits writes, continuing `value`. -/
def hexNumber? (value : Nat) : List Char → Option Nat
  | [] => some value
  | c :: rest => do hexNumber? (value * 16 + (← hexValue? c)) rest

end SlotSafe.Text
