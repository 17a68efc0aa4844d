/-!
# Binary64 numbers

A binary64 number is known by its 64 bits. The finite ones are `± m · 2 ^ q` with a natural number
`m`; a ratio of natural numbers is read as the nearest of them, and the one with even `m` where two
are equally near.
-/

namespace SlotSafe

/-- A binary64 number. -/
structure Binary64 where
  bits : UInt64
  deriving DecidableEq, Repr, Inhabited

namespace Binary64

/-- What the bits stand for. -/
inductive Meaning where
  | notANumber
  | infinite (negative : Bool)
  /-- The number `m · 2 ^ q`, or its opposite. -/
  | finite (negative : Bool) (m : Nat) (q : Int)
  deriving DecidableEq, Repr

/-- The number of values of the fraction field. -/
def fractionSize : Nat := Nat.pow 2 52

/-- The least power of two that a finite number is a multiple of. -/
def leastExponent : Int := -1074

/-- The bits of the positive infinity, past those of every finite positive number. -/
def infinityBits : Nat := 2047 * fractionSize

/-- What the bits stand for. -/
def meaning (x : Binary64) : Meaning :=
  let n := x.bits.toNat
  let negative := Nat.pow 2 63 ≤ n
  let magnitude := n % Nat.pow 2 63
  let exponent := magnitude / fractionSize
  let fraction := magnitude % fractionSize
  if exponent = 2047 then
    if fraction = 0 then .infinite negative else .notANumber
  else if exponent = 0 then .finite negative fraction leastExponent
  else .finite negative (fractionSize + fraction) (exponent + leastExponent - 1)

/-- The number with a sign and the bits of a magnitude. -/
def ofMagnitude (negative : Bool) (magnitude : Nat) : Binary64 :=
  ⟨UInt64.ofNat (if negative then Nat.pow 2 63 + magnitude else magnitude)⟩

/-- Infinity with a sign. -/
def infinity (negative : Bool) : Binary64 := ofMagnitude negative infinityBits

/-- The number that stands for no number. -/
def nan : Binary64 := ofMagnitude false (infinityBits + fractionSize / 2)

/-- A quotient, rounded to the nearest natural number, a half to the even one. -/
def roundDiv (num den : Nat) : Nat :=
  let quotient := num / den
  let twice := 2 * (num % den)
  if twice < den then quotient
  else if den < twice then quotient + 1
  else quotient + quotient % 2

/-- `num / (den · 2 ^ e)`, rounded. -/
def roundScaled (num den : Nat) (e : Int) : Nat :=
  if 0 ≤ e then roundDiv num (den * Nat.pow 2 e.toNat)
  else roundDiv (num * Nat.pow 2 (-e).toNat) den

/-- The exponent `e` for which `num / (den · 2 ^ e)` has 53 binary digits before the point, or the
least one. -/
def exponentFor (num den : Nat) : Int :=
  let low : Int := num.log2 - den.log2 - 53
  let quotient :=
    if 0 ≤ low then num / (den * Nat.pow 2 low.toNat) else num * Nat.pow 2 (-low).toNat / den
  max leastExponent (if quotient < 2 * fractionSize then low else low + 1)

/-- The number nearest to a ratio of natural numbers. Beyond the finite numbers that is infinity. -/
def nearest (negative : Bool) (num den : Nat) : Binary64 :=
  if num = 0 then ofMagnitude negative 0
  else
    let e := exponentFor num den
    let magnitude := (e - leastExponent).toNat * fractionSize + roundScaled num den e
    if infinityBits ≤ magnitude then infinity negative else ofMagnitude negative magnitude

/-- The number of decimal digits of a natural number. -/
def decimalLength (n : Nat) : Nat := (Nat.toDigits 10 n).length

/-- The number nearest to `digits · 10 ^ exponent`. Exponents far out of range are decided without
computing the power. -/
def ofDecimal (negative : Bool) (digits : Nat) (exponent : Int) : Binary64 :=
  let leading : Int := decimalLength digits + exponent
  if digits = 0 ∨ leading < -330 then ofMagnitude negative 0
  else if 330 < leading then infinity negative
  else if 0 ≤ exponent then nearest negative (digits * Nat.pow 10 exponent.toNat) 1
  else nearest negative digits (Nat.pow 10 (-exponent).toNat)

/-- The number nearest to an integer. -/
def ofInt (n : Int) : Binary64 := nearest (n < 0) n.natAbs 1

/-- The integer that a number equals, if it equals one. -/
def toInt? (x : Binary64) : Option Int :=
  match x.meaning with
  | .finite negative m q =>
    let signed (n : Nat) : Int := if negative then -n else n
    if 0 ≤ q then some (signed (m * Nat.pow 2 q.toNat))
    else if m % Nat.pow 2 (-q).toNat = 0 then some (signed (m / Nat.pow 2 (-q).toNat))
    else none
  | _ => none

/-- Whether a number stands for no number. -/
def isNaN (x : Binary64) : Bool := x.meaning == .notANumber

/-- Whether a number is zero, of either sign. -/
def isZero (x : Binary64) : Bool := x.toInt? == some 0

/-- The rounded sum. -/
def add (x y : Binary64) : Binary64 := ⟨(Float.ofBits x.bits + Float.ofBits y.bits).toBits⟩

/-- The rounded product. -/
def mul (x y : Binary64) : Binary64 := ⟨(Float.ofBits x.bits * Float.ofBits y.bits).toBits⟩

/-- The number with the opposite sign. -/
def neg (x : Binary64) : Binary64 := ⟨x.bits ^^^ 0x8000000000000000⟩

end Binary64

end SlotSafe
