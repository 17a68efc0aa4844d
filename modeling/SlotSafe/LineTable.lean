/-!
# Line tables

The lines of a text are told by the offsets at which they begin, in the octets of its UTF-8 form. The
line of an offset is then found by halving: it is the number of lines that begin at the offset or
before it.
-/

namespace SlotSafe

/-- The offsets at which the lines of a text begin, in their order. -/
structure LineTable where
  starts : Array Nat
  deriving DecidableEq, Repr

namespace LineTable

/-- The octet of a line feed. -/
def lineFeed : UInt8 := 0x0a

/-- The offsets after the line feeds among octets, the first of which has the given offset. -/
def startsAfter (offset : Nat) : List UInt8 → List Nat
  | [] => []
  | b :: rest =>
    if b = lineFeed then (offset + 1) :: startsAfter (offset + 1) rest
    else startsAfter (offset + 1) rest

/-- The lines of octets. The first line begins with them, even if there are none. -/
def ofOctets (octets : List UInt8) : LineTable := ⟨(0 :: startsAfter 0 octets).toArray⟩

/-- The lines of a text, which has octets since it is made of characters. -/
def ofText (s : String) : LineTable := ofOctets s.toUTF8.data.toList

/-- Looks for the first line that begins after an offset, among those from `low` up to `high`; `fuel`
bounds the number of halvings. -/
def search (t : LineTable) (start : Int) : (fuel low high : Nat) → Nat
  | 0, low, _ => low
  | fuel + 1, low, high =>
    if low < high then
      let middle := (low + high) / 2
      if start < t.starts.getD middle 0 then search t start fuel low middle
      else search t start fuel (middle + 1) high
    else low

/-- The line of an offset, counted from one. No line holds an offset below zero. -/
def lineOf (t : LineTable) (start : Int) : Nat := t.search start t.starts.size 0 t.starts.size

end LineTable

end SlotSafe
