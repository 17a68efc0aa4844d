/-!
# Blank characters

The white space that may surround a number.
-/

namespace SlotSafe.Text

/-- Blank characters: the space, tab, line, page and form breaks, and the spaces and separators of
other scripts. The four information separators U+001C to U+001F are not among them. -/
def isBlank (c : Char) : Bool :=
  let n := c.toNat
  (0x09 ≤ n && n ≤ 0x0d) || n == 0x20 || n == 0x85 || n == 0xa0 || n == 0x1680
    || (0x2000 ≤ n && n ≤ 0x200a) || n == 0x2028 || n == 0x2029 || n == 0x202f || n == 0x205f
    || n == 0x3000

end SlotSafe.Text
