import SlotSafe.Binary64
import SlotSafe.Text.Blank
import SlotSafe.Text.DecimalDigit

/-!
# Written real numbers

A real number is written as an optional sign, digits of any script with or without a point among
them, and possibly an exponent; or as a word for infinity or for what is no number, in any letter
case. Blanks may surround it. It is read as the nearest binary64 number.
-/

namespace SlotSafe.Decimal

open Text

/-- The digits at the front as a number, continuing `value`, how many they are, and the rest. -/
def digitsAt (value count : Nat) : List Char → Nat × Nat × List Char
  | [] => (value, count, [])
  | c :: rest =>
    match decimalDigit? c with
    | some d => digitsAt (value * 10 + d) (count + 1) rest
    | none => (value, count, c :: rest)

/-- The sign at the front, and the rest. -/
def signAt : List Char → Bool × List Char
  | '-' :: rest => (true, rest)
  | '+' :: rest => (false, rest)
  | s => (false, s)

/-- The exponent that is all that is left, or zero where nothing is left. -/
def exponentIn? : List Char → Option Int
  | [] => some 0
  | c :: rest =>
    if c = 'e' ∨ c = 'E' then
      let (negative, body) := signAt rest
      match digitsAt 0 0 body with
      | (value, _ + 1, []) => some (if negative then -(value : Int) else value)
      | _ => none
    else none

/-- The digits, the point and the exponent of a number. -/
def unsignedReal? (negative : Bool) (s : List Char) : Option Binary64 :=
  let (whole, wholeCount, rest) := digitsAt 0 0 s
  let (value, fractionCount, rest) := match rest with
    | '.' :: rest => digitsAt whole 0 rest
    | _ => (whole, 0, rest)
  if wholeCount + fractionCount = 0 then none
  else (exponentIn? rest).map fun e => .ofDecimal negative value (e - fractionCount)

/-- Reads a real number. -/
def readReal? (text : List Char) : Option Binary64 :=
  let trimmed := ((text.dropWhile isBlank).reverse.dropWhile isBlank).reverse
  let (negative, body) := signAt trimmed
  let word := String.ofList (body.map Char.toLower)
  if word = "inf" ∨ word = "infinity" then some (.infinity negative)
  else if word = "nan" then some .nan
  else unsignedReal? negative body

end SlotSafe.Decimal
