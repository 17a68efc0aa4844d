import SlotSafe.Decimal.Integer
import SlotSafe.Document
import SlotSafe.NestingLimits
import SlotSafe.Writing

/-!
# Documents in messages

A text stands in a message as it is; any other document is written out, with the texts inside it
between quotes. Where a list or map stands inside itself only its brackets are shown. An integer of
too many digits is not shown, and neither is what lies too deep. A surrogate is shown by its escape
between quotes; in a text that stands as it is, the replacement character takes its place.
-/

namespace SlotSafe.Document

/-- The lists and maps around a place: which they are, and whether they are maps. -/
abbrev Around := List (Identity × Bool)

/-- Whether a list or map is one of those around a place. -/
def isAround (around : Around) (id : Option Identity) : Bool :=
  id.any fun id => around.any fun place => place.1 == id

/-- What is around the parts of a list or map. -/
def inside (around : Around) (id : Option Identity) (isMap : Bool) : Around :=
  (id.map fun id => (id, isMap)).toList ++ around

/-- Texts with commas between them. -/
def joined (parts : List String) : String := ", ".intercalate parts

/-- An integer in decimal digits. -/
def intText (n : Int) : Except Obstacle String :=
  if Decimal.isWritable n then .ok (toString n) else .error .digits

variable [NestingLimits]

mutual

/-- A document as it stands inside a larger one, with `depth` lists and maps around it. -/
def nested (depth : Nat) (around : Around) : Document → Except Obstacle String
  | null => .ok "None"
  | bool b => .ok (if b then "True" else "False")
  | int n => intText n
  | float x => .ok (String.ofList (Decimal.binary64Chars Decimal.messageStyle x))
  | nan _ => .ok (String.ofList (Decimal.binary64Chars Decimal.messageStyle .nan))
  | text s => .ok (Text.quoted s)
  | unpaired u => .ok u.quoted
  | octets bytes => .ok (Text.quotedOctets bytes)
  | moment _ m => .ok m.nestedText
  | pair a b => do
    let first ← nested (depth + 1) around a
    let second ← nested (depth + 1) around b
    .ok ("(" ++ joined [first, second] ++ ")")
  | list id items =>
    if isAround around id then .ok "[...]"
    else if NestingLimits.showing ≤ depth then .error .depth
    else do
      let parts ← nestedItems (depth + 1) (inside around id false) items
      .ok ("[" ++ joined parts ++ "]")
  | map id entries =>
    if isAround around id then .ok "\x7b...\x7d"
    else if NestingLimits.showing ≤ depth then .error .depth
    else do
      let parts ← nestedEntries (depth + 1) (inside around id true) entries
      .ok ("\x7b" ++ joined parts ++ "\x7d")
  | set _ members =>
    if members.isEmpty then .ok "set()"
    else do
      let parts ← nestedItems (depth + 1) around members
      .ok ("\x7b" ++ joined parts ++ "\x7d")
  | knot _ body => nested depth around body
  | loop id => .ok (if around.lookup id = some true then "\x7b...\x7d" else "[...]")

/-- Items as they stand inside a list. -/
def nestedItems (depth : Nat) (around : Around) : List Document → Except Obstacle (List String)
  | [] => .ok []
  | x :: rest => do
    let first ← nested depth around x
    let others ← nestedItems depth around rest
    .ok (first :: others)

/-- Entries as they stand inside a map. -/
def nestedEntries (depth : Nat) (around : Around) :
    List (Document × Document) → Except Obstacle (List String)
  | [] => .ok []
  | (k, v) :: rest => do
    let key ← nested depth around k
    let value ← nested depth around v
    let others ← nestedEntries depth around rest
    .ok ((key ++ ": " ++ value) :: others)

end

/-- A document written out. -/
def writtenOut (d : Document) : Except Obstacle String := nested 0 [] d

/-- A document as it stands in a message. -/
def display : Document → Except Obstacle String
  | text s => .ok s
  | unpaired u => .ok (String.ofList u.replaced)
  | moment _ m => .ok m.text
  | d => d.writtenOut

@[simp] theorem display_text (s : String) : (text s).display = .ok s := rfl

end SlotSafe.Document
