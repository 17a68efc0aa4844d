import SlotSafe.Layout
import SlotSafe.Log
import SlotSafe.TypeKey

/-!
# Extraction of a contract's own variables

The nodes of a contract definition that declare variables in storage become the items of a layout,
in order. A variable must have a name, a source reference, a type identifier and a type as the
compiler writes it; the first that lacks one of them ends the extraction. The type key of an item is
its decoded identifier, and a key keeps the last type written for it.
-/

namespace SlotSafe.Extraction

/-- Whether a node declares a variable that occupies storage. Constants and immutables are part of
the code and take no slot. -/
def isStorageVariable (node : Document) : Except Fault Bool := do
  if (← node.memberOrNull "nodeType") == .text "VariableDeclaration" then
    if (← node.memberOr "constant" (.bool false)).isSet then .ok false
    else
      let mutability ← node.memberOrNull "mutability"
      .ok (!(mutability == .text "constant" || mutability == .text "immutable"))
  else .ok false

/-- A declared variable. -/
structure Declaration where
  contract : Document
  name : String
  typeKey : String
  src : Document
  /-- The type as the compiler writes it. -/
  typeLabel : String

/-- The item of a declared variable. -/
def Declaration.item (d : Declaration) : Item := ⟨d.contract, .text d.name, .text d.typeKey, d.src⟩

/-- The type key of a declared variable and its label. -/
def Declaration.typeEntry (d : Declaration) : Document × Document :=
  (.text d.typeKey, .text d.typeLabel)

variable [NestingLimits]

/-- The type identifier and the type of a variable. -/
def readType (node : Document) : Except Fault (String × String) := do
  let given ← node.memberOrNull "typeDescriptions"
  let descriptions := if given.isSet then given else .record []
  let identifier ← descriptions.memberOrNull "typeIdentifier"
  let written ← descriptions.memberOrNull "typeString"
  match identifier, written with
  | .text identifier, .text written => .ok (identifier, written)
  | _, _ => .error (.malformed (.untypedVariable (← (← node.memberOr "name" (.text "?")).shown)))

/-- The name of a variable, which must have a source reference too. -/
def readName (contract node : Document) : Except Fault String := do
  let name ← node.memberOrNull "name"
  let src ← node.memberOrNull "src"
  match name, src with
  | .text name, .text _ => .ok name
  | _, _ => .error (.malformed (.unnamedVariable (← contract.shown)))

/-- The declaration of a variable of a contract. -/
def declaration (locate : Document → Logged Document) (contract node : Document) :
    Logged Declaration := do
  let name ← readName contract node
  let (identifier, written) ← readType node
  let src ← locate node
  pure ⟨contract, name, TypeKey.decode identifier, src, written⟩

/-- The declarations of those nodes that declare variables in storage. -/
def declarations (locate : Document → Logged Document) (contract : Document) :
    List Document → Logged (List Declaration)
  | [] => pure []
  | node :: rest => do
    if ← isStorageVariable node then
      let first ← declaration locate contract node
      let others ← declarations locate contract rest
      pure (first :: others)
    else declarations locate contract rest

/-- The layout of declarations: every type key is among the types, with the type written last. -/
def layoutOf (ds : List Declaration) : Layout where
  items := ds.map Declaration.item
  types := .ofList (ds.map Declaration.typeEntry)
  closed := by
    intro item h
    obtain ⟨d, hd, rfl⟩ := List.mem_map.1 h
    refine Table.contains_insertAll_of_any (List.any_eq_true.2 ⟨d.typeEntry, ?_, ?_⟩)
    · exact List.mem_map.2 ⟨d, hd, rfl⟩
    · simp [Declaration.item, Declaration.typeEntry]

/-- The layout of the variables that a contract definition declares itself. -/
def layout (locate : Document → Logged Document) (definition : Document) : Logged Layout := do
  let contract ← definition.member "name"
  let nodes ← (← definition.memberOr "nodes" (.row [])).elements
  let ds ← declarations locate contract nodes
  let found := layoutOf ds
  Logged.report .debug .extraction "Extracted storage layout"
    [("contract", contract), ("variables", .count found.size),
      ("types", .count found.types.entries.length)]
  pure found

end SlotSafe.Extraction
