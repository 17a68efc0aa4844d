import SlotSafe.Extraction
import SlotSafe.SourceReference

/-!
# Compilations

A compilation is the input that a compiler was given and the output that it made. The output lists
the sources with their syntax trees, and the contract definitions stand at the top of the trees.

A contract is asked for by its name, or by the path of its source and its name with a colon between
them. Its full layout joins the layouts of its bases, the most basic one first: storage is given out
in the opposite order of the linearization that the compiler writes.
-/

namespace SlotSafe.Compilation

/-! ## Contract definitions -/

/-- The contract definitions among the nodes of a source, each with the path of the source. -/
def definitionsAmong (path : Document) : List Document → Except Fault (List (Document × Document))
  | [] => .ok []
  | node :: rest => do
    let kind ← node.memberOrNull "nodeType"
    let others ← definitionsAmong path rest
    .ok (if kind == .text "ContractDefinition" then (path, node) :: others else others)

/-- The contract definitions of a source. -/
def definitionsOf (path source : Document) : Except Fault (List (Document × Document)) := do
  let given ← source.memberOrNull "ast"
  let tree := if given.isSet then given else .record []
  let nodes ← (← tree.memberOr "nodes" (.row [])).elements
  definitionsAmong path nodes

/-- The contract definitions of sources, in order. -/
def definitionsIn : List (Document × Document) → Except Fault (List (Document × Document))
  | [] => .ok []
  | (path, source) :: rest => do
    let first ← definitionsOf path source
    let others ← definitionsIn rest
    .ok (first ++ others)

/-- The contract definitions of an output, each with the path of its source. -/
def definitions (output : Document) : Except Fault (List (Document × Document)) := do
  let sources ← output.memberOr "sources" (.record [])
  definitionsIn (← sources.entries)

/-! ## Finding a contract -/

/-- The parts of a text before and after its last colon, if it has one. -/
def splitLastColon (s : List Char) : Option (List Char × List Char) :=
  let after := (s.reverse.takeWhile (· != ':')).reverse
  if s.contains ':' then some (s.take (s.length - after.length - 1), after) else none

/-- What a contract is asked for by. -/
structure Query where
  /-- The question as it was asked. -/
  asked : Document
  path : Option String
  name : Document

/-- The query that a text stands for. -/
def Query.ofText (s : String) : Query :=
  match splitLastColon s.toList with
  | some (path, name) => ⟨.text s, some (String.ofList path), .text (String.ofList name)⟩
  | none => ⟨.text s, none, .text s⟩

/-- The query that asks by nothing, which the empty list stands for. -/
def Query.nothing : Query := ⟨.row [], none, .row []⟩

/-- Whether a contract definition answers a query. -/
def Query.admits (q : Query) (path node : Document) : Except Fault Bool := do
  let name ← node.memberOrNull "name"
  .ok (name == q.name && match q.path with
    | some p => path == .text p
    | none => true)

/-- The contract definitions that answer a query. -/
def answers (q : Query) : List (Document × Document) → Except Fault (List (Document × Document))
  | [] => .ok []
  | (path, node) :: rest => do
    let here ← q.admits path node
    let others ← answers q rest
    .ok (if here then (path, node) :: others else others)

variable [NestingLimits]

/-- A contract definition by its path and name, as it can be asked for. -/
def candidate (q : Query) (found : Document × Document) : Except Fault String := do
  .ok ((← found.1.shown) ++ ":" ++ (← q.name.shown))

/-- Contract definitions as they can be asked for. -/
def candidates (q : Query) : List (Document × Document) → Except Fault (List String)
  | [] => .ok []
  | found :: rest => do
    let first ← candidate q found
    let others ← candidates q rest
    .ok (first :: others)

/-- The one contract definition that answers a query, with its path. -/
def find (output : Document) (q : Query) : Except Fault (Document × Document) := do
  match ← answers q (← definitions output) with
  | [] => .error (.rejected (.contractMissing (← q.asked.shown)))
  | [found] => .ok found
  | several => do
    let several ← candidates q several
    .error (.rejected (.contractAmbiguous (← q.asked.shown) several))

/-- The one contract definition that answers a query. -/
def findContract (output : Document) (q : Query) : Logged Document := do
  let (path, node) ← find output q
  Logged.report .debug .compilation "Found contract" [("contract", q.name), ("path", path)]
  pure node

/-! ## Bases -/

/-- Enters contract definitions by their numbers; of several with one number the last counts. -/
def enterById (known : Table Document) :
    List (Document × Document) → Except Fault (Table Document)
  | [] => .ok known
  | (_, node) :: rest => do
    if ← node.mentions "id" then
      let id ← node.member "id"
      if id.isKey then enterById (known.insert id node) rest else .error .mismatch
    else enterById known rest

/-- The contract definitions of an output by their numbers. -/
def definitionsById (output : Document) : Except Fault (Table Document) := do
  enterById .empty (← definitions output)

/-- The numbers of a contract and its bases, the most basic one first. A contract without a
linearization stands alone. -/
def baseIds (definition : Document) : Except Fault (List Document) := do
  let given ← definition.memberOrNull "linearizedBaseContracts"
  if given.isSet then given.backwards else .ok [← definition.member "id"]

/-- The definition of a base: the contract itself under its own number, and the known definition
under any other. -/
def base (known : Table Document) (definition id : Document) : Except Fault Document := do
  if id == (← definition.memberOrNull "id") then .ok definition
  else match ← Document.lookUp known id with
    | some found => .ok found
    | none =>
      let missing ← id.shown
      .error (.rejected (.baseMissing missing (← (← definition.member "name").shown)))

/-- The layouts of the bases with the given numbers. -/
def baseLayouts (locate : Document → Logged Document) (known : Table Document)
    (definition : Document) : List Document → Logged (List Layout)
  | [] => pure []
  | id :: rest => do
    let found ← base known definition id
    let first ← Extraction.layout locate found
    let others ← baseLayouts locate known definition rest
    pure (first :: others)

/-- The full layout of a contract, its bases included. -/
def linearizedLayout (output definition : Document) (locate : Document → Logged Document) :
    Logged Layout := do
  let known ← definitionsById output
  let ids ← baseIds definition
  let layouts ← baseLayouts locate known definition ids
  pure (.concat layouts)

/-- The full layout of one contract of a compilation. -/
def layout (input output : Document) (q : Query) : Logged Layout := do
  let definition ← findContract output q
  let sources ← Sources.ofCompilation input output
  let found ← linearizedLayout output definition sources.locate
  Logged.report .info .compilation "Extracted storage layout"
    [("contract", q.asked), ("variables", .count found.size)]
  pure found

/-! ## Build info -/

/-- Whether a document bundles the input and the output of a compilation. -/
def isBuildInfo (d : Document) : Bool :=
  let part (name : String) : Option (Table Document) :=
    (d.table?.bind (·.find? (.text name))).bind Document.table?
  (part "input").isSome && match part "output" with
    | some output => output.contains (.text "sources")
    | none => false

end SlotSafe.Compilation
