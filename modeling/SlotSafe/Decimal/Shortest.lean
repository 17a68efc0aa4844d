import SlotSafe.Binary64

/-!
# The shortest decimal of a binary64 number

Among the decimals that read back as a given number, those with the fewest digits are the shortest,
and the nearest of the shortest is written. The reals that read back as `m · 2 ^ q` form an
interval around it, whose ends count when `m` is even. A decimal of `n` digits lies in it only if
one of the two decimals of `n` digits next to the number does, so for each `n` two candidates are
tried, in exact arithmetic.
-/

namespace SlotSafe.Decimal

/-- The decimal `digits · 10 ^ exponent`. -/
structure Shortest where
  digits : Nat
  exponent : Int
  deriving DecidableEq, Repr

/-- The reals that read back as one number, in units of a common ratio `unit`: the number itself
and the ends of the interval. -/
structure Interval where
  low : Nat
  value : Nat
  high : Nat
  /-- Numerator and denominator of the unit. -/
  unit : Nat × Nat
  closed : Bool
  deriving Repr

/-- The interval of `m · 2 ^ q`, in units of `2 ^ (q - 2)`. Below a power of two the neighbours are
half as far apart. -/
def Interval.of (m : Nat) (q : Int) : Interval where
  low := 4 * m - (if m = Binary64.fractionSize ∧ Binary64.leastExponent < q then 1 else 2)
  value := 4 * m
  high := 4 * m + 2
  unit := (Nat.pow 2 (q - 2).toNat, Nat.pow 2 (2 - q).toNat)
  closed := m % 2 = 0

/-- `n · 10 ^ e` as a ratio. -/
def tenfold (n : Nat) (e : Int) : Nat × Nat := (n * Nat.pow 10 e.toNat, Nat.pow 10 (-e).toNat)

/-- Whether a decimal lies in the interval. -/
def Interval.holds (i : Interval) (digits : Nat) (e : Int) : Bool :=
  let (num, den) := tenfold digits e
  let here := num * i.unit.2
  let low := i.low * i.unit.1 * den
  let high := i.high * i.unit.1 * den
  if i.closed then low ≤ here && here ≤ high else low < here && here < high

/-- The value in units of `10 ^ e`, rounded down. -/
def Interval.floor (i : Interval) (e : Int) : Nat :=
  i.value * i.unit.1 * Nat.pow 10 (-e).toNat / (i.unit.2 * Nat.pow 10 e.toNat)

/-- Whether the value is at least as near to `n` as to `n + 1`, in units of `10 ^ e`, where a tie
goes to the even one. -/
def Interval.nearerLow (i : Interval) (n : Nat) (e : Int) : Bool :=
  let value := 2 * i.value * i.unit.1 * Nat.pow 10 (-e).toNat
  let middle := (2 * n + 1) * i.unit.2 * Nat.pow 10 e.toNat
  value < middle || (value == middle && n % 2 == 0)

/-- The exponent of the first decimal digit of the value: the largest `e` with `10 ^ e` at most the
value. -/
def Interval.leading (i : Interval) (q : Int) : Int :=
  let start := ((i.value.log2 : Int) + q - 2) * 30103 / 100000 - 1
  [start + 2, start + 1].find? (fun e => 0 < i.floor e) |>.getD start

/-- The nearest decimal in the interval among those in units of `10 ^ e`, if there is one. -/
def Interval.nearestIn? (i : Interval) (e : Int) : Option Nat :=
  let n := i.floor e
  match i.holds n e, i.holds (n + 1) e with
  | true, true => some (if i.nearerLow n e then n else n + 1)
  | true, false => some n
  | false, true => some (n + 1)
  | false, false => none

/-- Tries ever finer units, `count` of them at most. -/
def Interval.search (i : Interval) (e : Int) : (count : Nat) → Option Shortest
  | 0 => none
  | count + 1 =>
    match i.nearestIn? e with
    | some n => some ⟨n, e⟩
    | none => i.search (e - 1) count

/-- Moves trailing zeros of the digits into the exponent; `fuel` bounds their number. -/
def Shortest.trim (s : Shortest) : (fuel : Nat) → Shortest
  | 0 => s
  | fuel + 1 =>
    if s.digits % 10 = 0 ∧ s.digits ≠ 0 then Shortest.trim ⟨s.digits / 10, s.exponent + 1⟩ fuel
    else s

/-- The shortest decimal of `m · 2 ^ q`. Seventeen digits are always enough. -/
def shortest (m : Nat) (q : Int) : Shortest :=
  if m = 0 then ⟨0, 0⟩
  else
    let i := Interval.of m q
    ((i.search (i.leading q) 17).getD ⟨0, 0⟩).trim 20

/-- How decimals are laid out. -/
structure NumberStyle where
  /-- Exponents of the first digit from here on are written with a point … -/
  leastPositional : Int
  /-- … up to here. -/
  greatestPositional : Int
  /-- The least number of digits of a written exponent. -/
  exponentDigits : Nat
  /-- Whether a point and a digit stand before an exponent in any case. -/
  pointBeforeExponent : Bool
  notANumber : String
  infinite : String

/-- The digits of a number, filled up with zeros on the left. -/
def padded (width n : Nat) : List Char :=
  let digits := Nat.toDigits 10 n
  List.replicate (width - digits.length) '0' ++ digits

/-- Digits with a point after the first `before` of them; at least one digit stands on each side. -/
def withPoint (digits : List Char) (before : Int) : List Char :=
  if before ≤ 0 then '0' :: '.' :: List.replicate (-before).toNat '0' ++ digits
  else
    let whole := digits.take before.toNat
    let filled := whole ++ List.replicate (before.toNat - whole.length) '0'
    let fraction := digits.drop before.toNat
    filled ++ '.' :: (if fraction.isEmpty then ['0'] else fraction)

/-- A positive decimal in a style. -/
def Shortest.chars (s : Shortest) (style : NumberStyle) : List Char :=
  let digits := Nat.toDigits 10 s.digits
  let leading : Int := s.exponent + digits.length - 1
  if s.digits = 0 then ['0', '.', '0']
  else if style.leastPositional ≤ leading ∧ leading ≤ style.greatestPositional then
    withPoint digits (leading + 1)
  else
    let fraction :=
      if style.pointBeforeExponent && digits.length = 1 then ['0'] else digits.drop 1
    digits.take 1 ++ (if fraction.isEmpty then [] else '.' :: fraction)
      ++ 'e' :: (if leading < 0 then '-' else '+') :: padded style.exponentDigits leading.natAbs

/-- A binary64 number in a style. -/
def binary64Chars (style : NumberStyle) (x : Binary64) : List Char :=
  match x.meaning with
  | .notANumber => style.notANumber.toList
  | .infinite negative => (if negative then ['-'] else []) ++ style.infinite.toList
  | .finite negative m q => (if negative then ['-'] else []) ++ (shortest m q).chars style

/-- Messages write numbers with a point from 10⁻⁴ to below 10¹⁶, and otherwise with an exponent of
at least two digits. -/
def messageStyle : NumberStyle := ⟨-4, 15, 2, false, "nan", "inf"⟩

end SlotSafe.Decimal
