import SlotSafe.Text.Parts

/-!
# Octets as letters

Three octets are written as four characters, six bits each. A rest of one or two octets is filled up
with bits that are zero, and the last four characters with equals signs.

Reading is lenient: characters that stand for no bits are passed over, and so are equals signs
before the place where they can fill up. What follows the fill is not read.
-/

namespace SlotSafe.Text.Base64

/-- The characters that stand for six bits, in the order of their values. -/
def alphabet : List Char :=
  "ABCDEFGHIJKLMNOPQRSTUVWXYZabcdefghijklmnopqrstuvwxyz0123456789+/".toList

/-- The character that stands for six bits. -/
def digit (n : Nat) : Char := alphabet.getD (n % 64) 'A'

/-- The bits that a character stands for. -/
def value? (c : Char) : Option Nat := alphabet.findIdx? (· == c)

/-- The characters of octets. -/
def encode : List UInt8 → List Char
  | a :: b :: c :: rest =>
    let n := (a.toNat * 256 + b.toNat) * 256 + c.toNat
    digit (n / 262144) :: digit (n / 4096) :: digit (n / 64) :: digit n :: encode rest
  | [a, b] =>
    let n := (a.toNat * 256 + b.toNat) * 256
    [digit (n / 262144), digit (n / 4096), digit (n / 64), '=']
  | [a] =>
    let n := a.toNat * 65536
    [digit (n / 262144), digit (n / 4096), '=', '=']
  | [] => []

/-- Reads the characters after those that have been read: `place` is the number of characters of the
last four that have been read, `bits` what is left over of them, and `fills` the number of equals
signs right before. There is no reading where the last four are not complete. -/
def decodeFrom (place bits fills : Nat) : List Char → Option (List UInt8)
  | [] => if place = 0 then some [] else none
  | c :: rest =>
    if c = '=' then
      if 2 ≤ place then
        if 4 ≤ place + fills + 1 then some [] else decodeFrom place bits (fills + 1) rest
      else decodeFrom place bits fills rest
    else match value? c with
      | none => decodeFrom place bits fills rest
      | some n => match place with
        | 0 => decodeFrom 1 n 0 rest
        | 1 => (decodeFrom 2 (n % 16) 0 rest).map (UInt8.ofNat (bits * 4 + n / 16) :: ·)
        | 2 => (decodeFrom 3 (n % 4) 0 rest).map (UInt8.ofNat (bits * 16 + n / 4) :: ·)
        | _ => (decodeFrom 0 0 0 rest).map (UInt8.ofNat (bits * 64 + n) :: ·)

/-- The octets that characters stand for. -/
def decode? (s : List Char) : Option (List UInt8) := decodeFrom 0 0 0 s

/-- The number of characters on a line. -/
def lineLength : Nat := 76

/-- The lines of the characters of octets. -/
def lines (bytes : List UInt8) : List (List Char) := chunks lineLength (encode bytes)

end SlotSafe.Text.Base64
