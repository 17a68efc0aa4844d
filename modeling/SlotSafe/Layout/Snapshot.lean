import SlotSafe.Layout

/-!
# Snapshots

A snapshot is a layout as a document: the items under `storage`, and under `types` a map from type
keys to maps with a `label`. It is what a layout is saved as and read back from.
-/

namespace SlotSafe.Layout

/-- The layout as a snapshot. -/
def toDocument (l : Layout) : Document :=
  .record [
    ("storage", .row (l.items.map Item.toDocument)),
    ("types", .map none (l.types.mapValues fun label => .record [("label", label)]).entries)]

/-- The member that a snapshot must have under a name. -/
def required (d : Document) (name : String) : Except Fault Document :=
  match d.member name with
  | .error (.missingKey _) => .error (.malformed (.missingMember name))
  | r => r

/-- The item of an entry under `storage`. Where the source is not given it is unknown. -/
def readItem (entry : Document) : Except Fault Item := do
  let contract ← required entry "contract"
  let label ← required entry "label"
  let type ← required entry "type"
  let src ← entry.memberOr "src" (.text "unknown")
  .ok ⟨contract, label, type, src⟩

/-- The items of the entries under `storage`. -/
def readItems : List Document → Except Fault (List Item)
  | [] => .ok []
  | entry :: rest => do
    let item ← readItem entry
    let items ← readItems rest
    .ok (item :: items)

/-- The type keys and labels of the entries under `types`. -/
def readTypes : List (Document × Document) → Except Fault (List (Document × Document))
  | [] => .ok []
  | (key, value) :: rest => do
    let label ← required value "label"
    let types ← readTypes rest
    .ok ((key, label) :: types)

/-- The entries under `storage`, which must be a list of maps. -/
def storageEntries (d : Document) : Except Fault (List Document) :=
  match d.unrolled with
  | .list _ entries =>
    if entries.all Document.isMap then .ok entries else .error (.malformed .storageShape)
  | _ => .error (.malformed .storageShape)

/-- The entries under `types`, which must be a map of maps. -/
def typeEntries (d : Document) : Except Fault (List (Document × Document)) :=
  match d.unrolled with
  | .map _ entries =>
    if entries.all (fun entry => entry.2.isMap) then .ok entries
    else .error (.malformed .typesShape)
  | _ => .error (.malformed .typesShape)

/-- The layout of a snapshot. -/
def ofDocument (d : Document) : Except Fault Layout := do
  let storage ← required d "storage"
  let types ← required d "types"
  let storage ← storageEntries storage
  let types ← typeEntries types
  let items ← readItems storage
  let labels ← readTypes types
  ofParts items (.ofList labels)

end SlotSafe.Layout
