import SlotSafe.Upgrade

/-!
# Reports for readers

What an upgrade does to the storage, as text: the unsafe changes as paragraphs, with their places in
bold where the terminal shows it, or the whole alignment as one line per step.
-/

namespace SlotSafe.Report

/-- Turns bold letters on. -/
def boldOn : String := "\x1b[1m"

/-- Turns bold letters off. -/
def boldOff : String := "\x1b[0m"

variable [NestingLimits]

/-- What a paragraph says after the place. -/
def tail (e : UpgradeError) : Except Fault String := e.tail.mapError (.ofObstacle .showing)

/-- The paragraph of a change. Without bold letters only a text can stand as its place. -/
def paragraph (bold : Bool) (e : UpgradeError) : Except Fault String :=
  if bold then do
    let place ← e.location.shown
    .ok (boldOn ++ place ++ boldOff ++ (← tail e))
  else do
    let rest ← tail e
    match e.location with
    | .text place => .ok (place ++ rest)
    | _ => .error .mismatch

/-- The paragraphs of the changes. -/
def paragraphs (bold : Bool) : List UpgradeError → Except Fault (List String)
  | [] => .ok []
  | e :: rest => do
    let first ← paragraph bold e
    let others ← paragraphs bold rest
    .ok (first :: others)

/-- The heading and a paragraph for every unsafe change. -/
def errorText (bold : Bool) (errors : List UpgradeError) : Except Fault String := do
  .ok (UpgradeError.heading ++ "\n\n" ++ "\n\n".intercalate (← paragraphs bold errors))

/-- A variable with its type and its place. -/
def describe (l : Layout) (item : Item) : Except Fault String := do
  let name ← item.label.shown
  let type ← (← l.typeLabel item).shown
  .ok (name ++ " (" ++ type ++ ") at " ++ (← item.src.shown))

/-- A text filled up with blanks to a width. -/
def padTo (width : Nat) (s : String) : String :=
  s ++ String.ofList (List.replicate (width - s.length) ' ')

/-- The line of one step: the action, and what becomes of which variable. -/
def stepText (original updated : Layout) (change : Change Item) : Except Fault String := do
  let action := padTo 10 change.action ++ " "
  match change.original, change.updated with
  | some o, some u =>
    let before ← describe original o
    let after ← describe updated u
    .ok (action ++ before ++ " -> " ++ after)
  | none, some u => return action ++ (← describe updated u)
  | some o, none => return action ++ (← describe original o)
  | none, none => .ok change.action

/-- The lines of steps. -/
def stepLines (original updated : Layout) : List (Change Item) → Except Fault (List String)
  | [] => .ok []
  | change :: rest => do
    let line ← stepText original updated change
    let others ← stepLines original updated rest
    .ok (line :: others)

/-- An alignment as text, one line per step. -/
def operationsText (original updated : Layout) (changes : List (Change Item)) :
    Except Fault String :=
  if changes.isEmpty then .ok "No changes to existing storage."
  else do .ok ("\n".intercalate (← stepLines original updated changes))

/-- One side of a step as a document: null where there is no item. -/
def sideDocument (item : Option Item) : Document := (item.map Item.toDocument).getD .null

/-- An alignment as a document. -/
def operationsDocument (changes : List (Change Item)) : Document :=
  .row (changes.map fun change =>
    .record [("action", .text change.action), ("original", sideDocument change.original),
      ("updated", sideDocument change.updated)])

/-- The result of a check as a document. -/
def checkDocument (errors : List UpgradeError) : Document :=
  .record [("compatible", .bool errors.isEmpty),
    ("errors", .row (errors.map UpgradeError.toDocument))]

end SlotSafe.Report
