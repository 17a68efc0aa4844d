import SlotSafe.Text.Parts

/-!
# Text from octets

The reading of UTF-8, strict: an octet sequence that is no character stops the reading and is
reported with its place, its length and the reason. Octets may arrive in blocks. A character that
a block leaves incomplete is carried over to the next one, and places are counted from the start
of what is then read, carried octets included.
-/

namespace SlotSafe.Text.Utf8

/-- Why a sequence of octets is not a character. -/
inductive Reason where
  /-- The first octet starts no character. -/
  | start
  /-- An octet that should continue the character does not. -/
  | continuation
  /-- The octets end inside the character. -/
  | ending
  deriving DecidableEq, Repr

/-- A sequence of octets that is not a character: where it starts, how many octets it has, and the
first of them. -/
structure DecodeError where
  offset : Nat
  length : Nat
  first : UInt8
  reason : Reason
  deriving DecidableEq, Repr

/-- The reason in words. -/
def Reason.text : Reason → String
  | .start => "invalid start byte"
  | .continuation => "invalid continuation byte"
  | .ending => "unexpected end of data"

/-- Whether an octet continues a character. -/
def isTail (b : UInt8) : Bool := 0x80 ≤ b && b ≤ 0xbf

/-- Whether an octet may come second after the given first one: besides being a tail it must not
make a longer form of a shorter character, a surrogate, or a number past the last character. -/
def isSecond (a b : UInt8) : Bool :=
  if a == 0xe0 then 0xa0 ≤ b && b ≤ 0xbf
  else if a == 0xed then 0x80 ≤ b && b ≤ 0x9f
  else if a == 0xf0 then 0x90 ≤ b && b ≤ 0xbf
  else if a == 0xf4 then 0x80 ≤ b && b ≤ 0x8f
  else isTail b

/-- The character whose first octet holds `lead` and whose tails are given. -/
def assemble (lead : Nat) (tails : List UInt8) : Char :=
  Char.ofNat (tails.foldl (fun n b => n * 64 + (b.toNat - 0x80)) lead)

/-- What is read of octets: the characters before the first fault, the fault, and the octets of a
last character that is incomplete. -/
structure Part where
  chars : List Char
  fault : Option DecodeError
  left : List UInt8

/-- Puts a character in front. -/
def Part.cons (c : Char) (p : Part) : Part := { p with chars := c :: p.chars }

/-- Reads characters until the octets end. `offset` counts the octets already read. -/
def decodePart (offset : Nat) : List UInt8 → Part
  | [] => ⟨[], none, []⟩
  | a :: rest =>
    let fail (length : Nat) (reason : Reason) : Part := ⟨[], some ⟨offset, length, a, reason⟩, []⟩
    if a < 0x80 then (decodePart (offset + 1) rest).cons (assemble a.toNat [])
    else if a < 0xc2 || 0xf4 < a then fail 1 .start
    else match rest with
      | [] => ⟨[], none, [a]⟩
      | b :: rest =>
        if !isSecond a b then fail 1 .continuation
        else if a < 0xe0 then (decodePart (offset + 2) rest).cons (assemble (a.toNat - 0xc0) [b])
        else match rest with
          | [] => ⟨[], none, [a, b]⟩
          | c :: rest =>
            if !isTail c then fail 2 .continuation
            else if a < 0xf0 then
              (decodePart (offset + 3) rest).cons (assemble (a.toNat - 0xe0) [b, c])
            else match rest with
              | [] => ⟨[], none, [a, b, c]⟩
              | d :: rest =>
                if !isTail d then fail 3 .continuation
                else (decodePart (offset + 4) rest).cons (assemble (a.toNat - 0xf0) [b, c, d])

/-- The fault of octets that are left over at the end, `offset` counting those before. -/
def endFault? (offset : Nat) (left : List UInt8) : Option DecodeError :=
  left.head?.map fun a => ⟨offset, left.length, a, .ending⟩

/-- The fault of octets that arrive all at once. -/
def Part.fault? (p : Part) (octets : List UInt8) : Option DecodeError :=
  p.fault.or (endFault? (octets.length - p.left.length) p.left)

/-- Reads octets that arrive all at once. -/
def decode (octets : List UInt8) : Except DecodeError (List Char) :=
  let part := decodePart 0 octets
  match part.fault? octets with
  | some e => .error e
  | none => .ok part.chars

/-- Reads octets that arrive in blocks, `carried` being those left over from the blocks before: the
characters of the blocks before the first fault, and the fault. -/
def decodeBlocks (carried : List UInt8) : List (List UInt8) → List Char × Option DecodeError
  | [] => ([], endFault? 0 carried)
  | block :: blocks =>
    let part := decodePart 0 (carried ++ block)
    match part.fault with
    | some e => ([], some e)
    | none =>
      let (chars, fault) := decodeBlocks part.left blocks
      (part.chars ++ chars, fault)

/-- Reads octets that arrive in blocks of a given size. -/
def decodeIn (size : Nat) (octets : List UInt8) : List Char × Option DecodeError :=
  decodeBlocks [] (chunks size octets)

/-- The character that takes the place of octets that are none. -/
def replacement : Char := Char.ofNat 0xfffd

/-- Reads octets, with a sign in the place of each sequence that is no character; `fuel` bounds the
number of such sequences. -/
def decodeReplacing : (fuel : Nat) → List UInt8 → List Char
  | 0, _ => []
  | fuel + 1, octets =>
    let part := decodePart 0 octets
    match part.fault? octets with
    | none => part.chars
    | some e =>
      part.chars ++ replacement :: decodeReplacing fuel (octets.drop (e.offset + e.length))

end SlotSafe.Text.Utf8
