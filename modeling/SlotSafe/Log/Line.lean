import SlotSafe.Json.Writer
import SlotSafe.Log

/-!
# Events as lines

An event is shown as a line in JSON or for a reader. In JSON a value that has no form of its own
there is shown by the text that stands for it in messages, octets are read as text, and keys are
texts. Not every event can be shown: an integer can have too many digits, a key can have no form in
JSON, and a list can hold itself.
-/

namespace SlotSafe

namespace Document

/-- The text for which a key stands in JSON. -/
def keyText (key : Document) : Except Obstacle String :=
  match key with
  | text s => .ok s
  | unpaired u => .ok (String.ofList u.replaced)
  | key => (Json.writeScalar key).map String.ofList

variable [NestingLimits]

mutual

/-- A document with nothing in it that has no form in JSON, inside `depth` lists and maps, among
them those of given identities. -/
def plain (depth : Nat) (around : List Identity) : Document → Except Obstacle Document
  | int n => if Decimal.isWritable n then .ok (int n) else .error .digits
  | octets bytes => (octets bytes).writtenOut.map text
  | moment id m => (moment id m).writtenOut.map text
  | set id members => (set id members).writtenOut.map text
  | pair a b => do
    let first ← plain (depth + 1) around a
    let second ← plain (depth + 1) around b
    .ok (row [first, second])
  | list id items =>
    if items.isEmpty then .ok (row [])
    else if id.any around.contains then .error .circular
    else if NestingLimits.logging ≤ depth then .error .depth
    else (plainItems (depth + 1) (id.toList ++ around) items).map row
  | map id entries =>
    if entries.isEmpty then .ok (record [])
    else if id.any around.contains then .error .circular
    else if NestingLimits.logging ≤ depth then .error .depth
    else (plainEntries (depth + 1) (id.toList ++ around) entries).map fun fields =>
      map none (Table.ofList fields).entries
  | knot _ body => plain depth around body
  | loop _ => .error .circular
  | d => .ok d

/-- Items with nothing in them that has no form in JSON. -/
def plainItems (depth : Nat) (around : List Identity) :
    List Document → Except Obstacle (List Document)
  | [] => .ok []
  | d :: rest => do
    let first ← plain depth around d
    let others ← plainItems depth around rest
    .ok (first :: others)

/-- Entries with nothing in them that has no form in JSON. -/
def plainEntries (depth : Nat) (around : List Identity) :
    List (Document × Document) → Except Obstacle (List (Document × Document))
  | [] => .ok []
  | (k, d) :: rest => do
    let key ← k.keyText
    let value ← plain depth around d
    let others ← plainEntries depth around rest
    .ok ((.text key, value) :: others)

end

/-- A value of an event in JSON. -/
def inEvent : Document → Except Obstacle Document
  | octets bytes =>
    .ok (text (String.ofList (Text.Utf8.decodeReplacing (bytes.length + 1) bytes)))
  | d => d.plain 0 []

/-- Whether a value of an event can be shown to a reader. -/
def isShowable : Document → Except Obstacle Unit
  | text _ => .ok ()
  | octets _ => .ok ()
  | d => d.writtenOut.map fun _ => ()

end Document

namespace LogValue

variable [NestingLimits]

/-- What an event says, in JSON. -/
def inEvent : LogValue → Except Obstacle Document
  | document d => d.inEvent
  | count n => .ok (.int n)

/-- Whether what an event says can be shown to a reader. -/
def isShowable : LogValue → Except Obstacle Unit
  | document d => d.isShowable
  | count _ => .ok ()

end LogValue

namespace LogEvent

variable [NestingLimits]

/-- Fields in JSON. -/
def lineFields : List (String × LogValue) → Except Obstacle (List (String × Document))
  | [] => .ok []
  | (name, v) :: rest => do
    let value ← v.inEvent
    let others ← lineFields rest
    .ok ((name, value) :: others)

/-- The line of an event in JSON: its fields, then what it is. -/
def line (e : LogEvent) : Except Fault Document := do
  let fields ← (lineFields e.fields).mapError (.ofObstacle .logging)
  .ok (.record (fields ++ [("event", .text e.event), ("logger", .text e.component.name),
    ("level", .text e.level.name)]))

/-- Whether fields can be shown to a reader. -/
def showFields : List (String × LogValue) → Except Obstacle Unit
  | [] => .ok ()
  | (_, v) :: rest => do
    v.isShowable
    showFields rest

/-- Shows an event to a reader. -/
def showReader (e : LogEvent) : Except Fault Unit :=
  (showFields e.fields).mapError (.ofObstacle .showing)

end LogEvent

end SlotSafe
