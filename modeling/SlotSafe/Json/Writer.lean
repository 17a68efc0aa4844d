import SlotSafe.Decimal.Integer
import SlotSafe.Document
import SlotSafe.Json.Text
import SlotSafe.NestingLimits
import SlotSafe.Writing

/-!
# Writing JSON

Every item and every entry stands on a line of its own, two blanks deeper than the list or map that
holds it; an empty list or map stands on one line. Two documents in a row are written as a list.
Keys that are numbers, truth values or null are written as texts. Octets, moments and sets have no
form in JSON, as values or as keys, and neither has a list or map that holds itself.
-/

namespace SlotSafe.Json

/-- Numbers in JSON are laid out as in messages, with names of their own for what is not finite. -/
def numberStyle : Decimal.NumberStyle :=
  { Decimal.messageStyle with notANumber := "NaN", infinite := "Infinity" }

/-- A line break and the blanks that begin a line at a depth. -/
def newLine (depth : Nat) : List Char := '\n' :: List.replicate (2 * depth) ' '

/-- A value that is no list and no map, if it has a written form. -/
def writeScalar : Document → Except Obstacle (List Char)
  | .null => .ok "null".toList
  | .bool b => .ok (if b then "true" else "false").toList
  | .int n => if Decimal.isWritable n then .ok (toString n).toList else .error .digits
  | .float x => .ok (Decimal.binary64Chars numberStyle x)
  | .nan _ => .ok (Decimal.binary64Chars numberStyle .nan)
  | .text s => .ok (writeText s.toList)
  | .unpaired u => .ok (writePoints u.points)
  | _ => .error .kind

/-- A key, if it has a written form. Keys are always written as texts. -/
def writeKey : Document → Except Obstacle (List Char)
  | .text s => .ok (writeText s.toList)
  | .unpaired u => .ok (writePoints u.points)
  | key => (writeScalar key).map writeText

/-- Whether the writing of an item stops before what separates it from the one before is put out. -/
def stopsEarly (item : Document) : Bool :=
  match writeScalar item with
  | .error .digits => true
  | _ => false

/-- What separates an item from the one before. -/
def separator (start : List Char) (item : Document) : Writing :=
  if stopsEarly item then .stop .digits else .say start

variable [NestingLimits]

mutual

/-- A document whose first line begins at a depth, inside the lists and maps of given identities. -/
def write (depth : Nat) (around : List Identity) : Document → Writing
  | .list _ [] => .say ['[', ']']
  | .list id (x :: rest) =>
    if id.any around.contains then .stop .circular
    else if NestingLimits.writing .json ≤ depth then .stop .depth
    else
      let around := id.toList ++ around
      separator ('[' :: newLine (depth + 1)) x ++ write (depth + 1) around x
        ++ writeItems (depth + 1) around rest ++ .say (newLine depth ++ [']'])
  | .pair a b =>
    separator ('[' :: newLine (depth + 1)) a ++ write (depth + 1) around a
      ++ separator (',' :: newLine (depth + 1)) b ++ write (depth + 1) around b
      ++ .say (newLine depth ++ [']'])
  | .map _ [] => .say ['\x7b', '\x7d']
  | .map id (entry :: rest) =>
    if id.any around.contains then .stop .circular
    else if NestingLimits.writing .json ≤ depth then .stop .depth
    else
      let around := id.toList ++ around
      .say ('\x7b' :: newLine (depth + 1)) ++ writeEntry (depth + 1) around [] entry
        ++ writeEntries (depth + 1) around rest ++ .say (newLine depth ++ ['\x7d'])
  | .knot _ body => write depth around body
  | .loop _ => .stop .circular
  | d => .sayIf (writeScalar d)

/-- The items after the first. -/
def writeItems (depth : Nat) (around : List Identity) : List Document → Writing
  | [] => .say []
  | x :: rest =>
    separator (',' :: newLine depth) x ++ write depth around x ++ writeItems depth around rest

/-- The entries after the first. -/
def writeEntries (depth : Nat) (around : List Identity) : List (Document × Document) → Writing
  | [] => .say []
  | entry :: rest =>
    writeEntry depth around (',' :: newLine depth) entry ++ writeEntries depth around rest

/-- An entry after what separates it from the one before. -/
def writeEntry (depth : Nat) (around : List Identity) (start : List Char) :
    Document × Document → Writing
  | (key, value) =>
    .sayIf ((writeKey key).map fun chars => start ++ chars ++ [':', ' '])
      ++ write depth around value

end

/-- A document as the text of a file: the last line is ended too. -/
def render (d : Document) : Writing := write 0 [] d ++ .say ['\n']

end SlotSafe.Json
