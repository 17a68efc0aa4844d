import SlotSafe.Yaml.Token.Lexer
import SlotSafe.Yaml.Value

/-!
# Reading YAML

A text is read as tokens, the tokens as the nodes of a document, and the nodes as the document. A
text without a document is null. Control characters other than tabs and line ends may not stand
anywhere in a text.

A text arrives in blocks, and a block is looked at only when all before it has been read. So what is
wrong in the blocks before a fault is found before the fault.
-/

namespace SlotSafe.Yaml

/-- Whether a character may stand in a text. -/
def isAllowed (c : Char) : Bool :=
  let n := c.toNat
  n == 0x09 || n == 0x0a || n == 0x0d || (0x20 ≤ n && n ≤ 0x7e) || n == 0x85
    || (0xa0 ≤ n && n ≤ 0xfffd) || 0x10000 ≤ n

/-- The number of characters that arrive at a time. -/
def blockSize : Nat := 4096

/-- The number of characters that have arrived before the block with a given place. The first two
blocks arrive as one. -/
def arrivedBefore (place : Nat) : Nat :=
  if place < 2 * blockSize then 0 else place / blockSize * blockSize

/-- Where a text is cut, and why. -/
structure Cut where
  place : Nat
  reason : ReadError

/-- The cut before a character that may not stand in a text. -/
def unprintableCut? (s : List Char) : Option Cut :=
  (s.findIdx? fun c => !isAllowed c).map fun place =>
    ⟨arrivedBefore place, .unprintable (s.getD place ' ')⟩

/-- The first of two cuts. -/
def Cut.first? (a b : Option Cut) : Option Cut :=
  match a, b with
  | some a, some b => some (if b.place < a.place then b else a)
  | a, b => a.or b

/-- The tokens of a text of which the characters before octets that are no text are given. -/
def tokensUpTo (s : List Char) (undecoded : Option Text.Utf8.DecodeError) : List Token :=
  let undecodable := undecoded.map fun e => ⟨arrivedBefore s.length, .undecodable e⟩
  match Cut.first? undecodable (unprintableCut? s) with
  | some cut => tokens (s.take cut.place) (some cut.reason)
  | none => tokens s none

variable [NestingLimits]

/-- Reads a text that holds at most one document; `reading` is the number of this reading. Where the
text ends in octets that are no text, what comes before them is given. -/
def read (reading : Nat) (s : List Char) (undecoded : Option Text.Utf8.DecodeError) :
    Except ReadError Document := do
  match ← Graph.ofTokens? (tokensUpTo s undecoded) with
  | some graph => graph.document reading
  | none => .ok .null

end SlotSafe.Yaml
