import SlotSafe.Decimal.Shortest

/-!
# Dates and times of day

A moment is a day of the calendar, possibly with a time of day, and that possibly with its distance
from universal time. Two moments with a known distance are the same when they name the same
instant; any other two only when they agree in every part.
-/

namespace SlotSafe

/-- A time of day. -/
structure Clock where
  hour : Nat
  minute : Nat
  second : Nat
  microsecond : Nat
  /-- Minutes east of universal time, where they are known. -/
  offset : Option Int
  deriving DecidableEq, Repr

/-- A day, with a time of day or without. -/
structure Moment where
  year : Nat
  month : Nat
  day : Nat
  clock : Option Clock
  deriving DecidableEq, Repr

namespace Moment

/-- Why parts make no moment. -/
inductive RangeError where
  | year (n : Nat)
  | month
  | day
  | hour
  | minute
  | second
  /-- The distance from universal time, in minutes, is a day or more. -/
  | offset (minutes : Int)
  deriving DecidableEq, Repr

/-- Whether a year has a 29 February. -/
def isLeap (year : Nat) : Bool := year % 4 == 0 && (year % 100 != 0 || year % 400 == 0)

/-- The number of days of a month. -/
def monthLength (year month : Nat) : Nat :=
  if month = 2 then (if isLeap year then 29 else 28)
  else if month = 4 ∨ month = 6 ∨ month = 9 ∨ month = 11 then 30
  else 31

/-- The days before a year, counted from year 1. -/
def daysBeforeYear (year : Nat) : Nat :=
  let y := year - 1
  y * 365 + y / 4 - y / 100 + y / 400

/-- The days before a day, counted from the first day of year 1. -/
def dayNumber (m : Moment) : Nat :=
  let daysBeforeMonth := (List.range (m.month - 1)).foldl
    (fun days k => days + monthLength m.year (k + 1)) (daysBeforeYear m.year)
  daysBeforeMonth + m.day - 1

/-- The microseconds, in universal time, from the start of year 1, where the distance is known. -/
def instant? (m : Moment) : Option Int := do
  let clock ← m.clock
  let offset ← clock.offset
  let minutes : Int := (m.dayNumber * 24 + clock.hour) * 60 + clock.minute
  some (((minutes - offset) * 60 + clock.second) * 1000000 + clock.microsecond)

/-- Checks that the parts lie in their ranges. -/
def check (m : Moment) : Except RangeError Moment := do
  if let some clock := m.clock then
    if let some minutes := clock.offset then
      if 24 * 60 ≤ minutes.natAbs then throw (.offset minutes)
  if m.year = 0 then throw (.year m.year)
  if m.month = 0 ∨ 12 < m.month then throw .month
  if m.day = 0 ∨ monthLength m.year m.month < m.day then throw .day
  if let some clock := m.clock then
    if 23 < clock.hour then throw .hour
    if 59 < clock.minute then throw .minute
    if 59 < clock.second then throw .second
  return m

/-- A number of at least `width` digits. -/
def digits (width n : Nat) : String := String.ofList (Decimal.padded width n)

/-- A distance from universal time as hours and minutes. -/
def offsetText (minutes : Int) : String :=
  (if minutes < 0 then "-" else "+") ++ digits 2 (minutes.natAbs / 60) ++ ":"
    ++ digits 2 (minutes.natAbs % 60)

/-- The time of day: seconds have six decimals or none. -/
def clockText (clock : Clock) : String :=
  digits 2 clock.hour ++ ":" ++ digits 2 clock.minute ++ ":" ++ digits 2 clock.second
    ++ (if clock.microsecond = 0 then "" else "." ++ digits 6 clock.microsecond)
    ++ (clock.offset.map offsetText).getD ""

/-- The moment as it is written: the day, and the time of day after a blank. -/
def text (m : Moment) : String :=
  digits 4 m.year ++ "-" ++ digits 2 m.month ++ "-" ++ digits 2 m.day
    ++ (m.clock.map fun clock => " " ++ clockText clock).getD ""

/-- A length of time, as days and a remainder of seconds, as it stands inside a larger value. -/
def durationText (minutes : Int) : String :=
  let days := minutes.fdiv (24 * 60)
  let seconds := minutes.fmod (24 * 60) * 60
  let parts := (if days = 0 then [] else ["days=" ++ toString days])
    ++ (if seconds = 0 then [] else ["seconds=" ++ toString seconds])
  "datetime.timedelta(" ++ (if parts.isEmpty then "0" else ", ".intercalate parts) ++ ")"

/-- A distance from universal time as it stands inside a larger value. -/
def zoneText (minutes : Int) : String :=
  if minutes = 0 then "datetime.timezone.utc"
  else "datetime.timezone(" ++ durationText minutes ++ ")"

/-- The moment as it stands inside a larger value. -/
def nestedText (m : Moment) : String :=
  let day := [m.year, m.month, m.day]
  match m.clock with
  | none => "datetime.date(" ++ ", ".intercalate (day.map toString) ++ ")"
  | some clock =>
    let seconds := if clock.microsecond = 0 then
        (if clock.second = 0 then [] else [clock.second])
      else [clock.second, clock.microsecond]
    let zone := (clock.offset.map fun minutes => ["tzinfo=" ++ zoneText minutes]).getD []
    let parts := (day ++ [clock.hour, clock.minute] ++ seconds).map toString ++ zone
    "datetime.datetime(" ++ ", ".intercalate parts ++ ")"

/-- The error in words. -/
def RangeError.message : RangeError → String
  | .year n => "year " ++ toString n ++ " is out of range"
  | .month => "month must be in 1..12"
  | .day => "day is out of range for month"
  | .hour => "hour must be in 0..23"
  | .minute => "minute must be in 0..59"
  | .second => "second must be in 0..59"
  | .offset minutes =>
    "offset must be a timedelta strictly between -timedelta(hours=24) and timedelta(hours=24), not "
      ++ durationText minutes ++ "."

end Moment

end SlotSafe
