import SlotSafe.Json.Writer

/-!
# JSON on one line

The same form as that of files, without line breaks: a blank follows every comma and every colon.
-/

namespace SlotSafe.Json

mutual

/-- A document on one line. -/
def line : Document → Writing
  | .list _ items => .say ['['] ++ lineItems items ++ .say [']']
  | .map _ entries => .say ['\x7b'] ++ lineEntries entries ++ .say ['\x7d']
  | .pair a b => .say ['['] ++ line a ++ .say [',', ' '] ++ line b ++ .say [']']
  | .knot _ body => line body
  | .loop _ => .stop .circular
  | d => .sayIf (writeScalar d)

/-- Items with commas between them. -/
def lineItems : List Document → Writing
  | [] => .say []
  | x :: rest => match rest with
    | [] => line x
    | _ :: _ => line x ++ .say [',', ' '] ++ lineItems rest

/-- Entries with commas between them. -/
def lineEntries : List (Document × Document) → Writing
  | [] => .say []
  | (key, value) :: rest =>
    let first := .sayIf ((writeKey key).map (· ++ [':', ' '])) ++ line value
    match rest with
    | [] => first
    | _ :: _ => first ++ .say [',', ' '] ++ lineEntries rest

end

end SlotSafe.Json
