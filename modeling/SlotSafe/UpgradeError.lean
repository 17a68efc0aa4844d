import SlotSafe.Document.Display

/-!
# Unsafe changes

An unsafe change is reported with the place and the name of the variable and what happens to it.
The report of an upgrade has a heading and one paragraph for each change.
-/

namespace SlotSafe

/-- One unsafe change between two storage layouts. -/
structure UpgradeError where
  location : Document
  action : String
  label : Document

namespace UpgradeError

/-- The heading of every report. -/
def heading : String := "New storage layout is incompatible"

variable [NestingLimits]

/-- What happens to the variable, after its place. -/
def tail (e : UpgradeError) : Except Obstacle String := do
  .ok (": " ++ e.action ++ " of variable " ++ (← e.label.display))

/-- The paragraph of one change. -/
def paragraph (e : UpgradeError) : Except Obstacle String := do
  let place ← e.location.display
  .ok (place ++ (← e.tail))

/-- The paragraphs of changes. -/
def paragraphs : List UpgradeError → Except Obstacle (List String)
  | [] => .ok []
  | e :: rest => do
    let first ← e.paragraph
    let others ← paragraphs rest
    .ok (first :: others)

/-- The paragraphs with empty lines between them. -/
def details (errors : List UpgradeError) : Except Obstacle String := do
  .ok ("\n\n".intercalate (← paragraphs errors))

/-- The report as one message: the heading, and the paragraphs unless they are empty. -/
def summary (errors : List UpgradeError) : Except Obstacle String := do
  let text ← details errors
  .ok (if text.isEmpty then heading else heading ++ "\n\n" ++ text)

/-- The change as a document. -/
def toDocument (e : UpgradeError) : Document :=
  .record [("location", e.location), ("action", .text e.action), ("label", e.label)]

end UpgradeError

end SlotSafe
