import SlotSafe.Text.Blank
import SlotSafe.Text.DecimalDigit
import SlotSafe.Text.Hex
import SlotSafe.Text.Quoted

/-!
# Written integers

An integer is written as an optional sign and digits, with blanks around it and single underscores
between the digits. Decimal digits may be of any script. Before the digits of base 2, 8 or 16 the
base may be marked by a zero and a letter. A number that is not written in one of these bases may
have at most 4300 digits, leading zeros included.
-/

namespace SlotSafe.Decimal

open Text

/-- The most digits a decimal number may have. -/
def digitLimit : Nat := 4300

/-- Whether an integer has no more digits than are written. -/
def isWritable (n : Int) : Bool := n.natAbs < Nat.pow 10 digitLimit

/-- Why a text is not an integer. -/
inductive IntegerError where
  /-- The text does not follow the grammar of integers in the given base. -/
  | malformed (base : Nat) (text : String)
  /-- The number has more digits than are read. -/
  | tooLong (digits : Nat)
  deriving DecidableEq, Repr

/-- The error in words. A long text is cut to its first two hundred characters, quotes and escapes
included. -/
def IntegerError.message : IntegerError → String
  | .malformed base text =>
    "invalid literal for int() with base " ++ toString base ++ ": "
      ++ String.ofList ((quotedChars text.toList).take 200)
  | .tooLong digits =>
    "Exceeds the limit (" ++ toString digitLimit
      ++ " digits) for integer string conversion: value has " ++ toString digits
      ++ " digits; use sys.set_int_max_str_digits() to increase the limit"

/-- The value of a digit in a base: of any script where the base is at most ten, otherwise also a
letter. -/
def digitIn? (base : Nat) (c : Char) : Option Nat :=
  ((decimalDigit? c).or (hexValue? c)).bind fun d => if d < base then some d else none

/-- A run of digits with single underscores between them: the value and the number of the digits
and the rest of the text. `afterDigit` tells whether a digit stands just before. -/
def digitRun (base value count : Nat) (afterDigit : Bool) :
    List Char → Option (Nat × Nat × List Char)
  | [] => if afterDigit then some (value, count, []) else none
  | c :: rest =>
    match digitIn? base c with
    | some d => digitRun base (value * base + d) (count + 1) true rest
    | none =>
      if !afterDigit then none
      else if c = '_' then digitRun base value count false rest
      else some (value, count, c :: rest)

/-- The sign before the digits, and the rest. -/
def sign : List Char → Bool × List Char
  | '-' :: rest => (true, rest)
  | '+' :: rest => (false, rest)
  | s => (false, s)

/-- The letter that marks a base. -/
def baseMark? (base : Nat) : Option Char :=
  match base with
  | 2 => some 'b'
  | 8 => some 'o'
  | 16 => some 'x'
  | _ => none

/-- Passes the mark of a base, with an underscore after it if there is one. -/
def passMark (base : Nat) (s : List Char) : List Char :=
  match s with
  | '0' :: c :: rest =>
    if baseMark? base = some c.toLower then
      match rest with
      | '_' :: rest => rest
      | _ => rest
    else s
  | _ => s

/-- Reads an integer in a base. Too many digits are reported before anything that follows them. -/
def readIntegerIn (base : Nat) (text : List Char) : Except IntegerError Int :=
  let (negative, body) := sign (text.dropWhile isBlank)
  match digitRun base 0 0 false (passMark base body) with
  | none => .error (.malformed base (String.ofList text))
  | some (value, count, rest) =>
    if digitLimit < count && base != 2 && base != 8 && base != 16 then .error (.tooLong count)
    else if rest.all isBlank then .ok (if negative then -value else value)
    else .error (.malformed base (String.ofList text))

/-- Reads a decimal integer. -/
def readInteger (text : List Char) : Except IntegerError Int := readIntegerIn 10 text

end SlotSafe.Decimal
