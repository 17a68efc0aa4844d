import SlotSafe.Document.Access
import SlotSafe.LineTable
import SlotSafe.Log
import SlotSafe.Text.Parts

/-!
# Source references

The compiler says where a node of the syntax tree stands by a reference `start:length:source`: the
offset of its first octet, the number of its octets, and the number of its source. The reader of a
report wants the path of the source and the line instead.

A line is looked up in a table of the source's lines (`LineTable`), which is made when a node of the
source is located for the first time and kept for the nodes that follow.
-/

namespace SlotSafe

/-- A source reference. -/
structure SourceReference where
  start : Int
  length : Int
  source : Int
  deriving DecidableEq, Repr

namespace SourceReference

/-- Reads one of the integers of a reference. -/
def readPart (part : List Char) : Except Fault Int :=
  match Decimal.readInteger part with
  | .ok n => .ok n
  | .error e => .error (.rejected (.integer e))

/-- Reads a reference. -/
def read (s : String) : Except Fault SourceReference :=
  match Text.parts ':' s.toList with
  | [start, length, source] => do
    let start ← readPart start
    let length ← readPart length
    let source ← readPart source
    .ok ⟨start, length, source⟩
  | _ => .error (.rejected (.sourceReference s))

/-- Reads a reference that a document holds. -/
def ofDocument : Document → Except Fault SourceReference
  | .text s => read s
  | _ => .error .unsupported

end SourceReference

/-- The sources of a compilation: the path of each number, and what the input says of each path. -/
structure Sources where
  paths : Table Document
  contents : Document

namespace Sources

/-- Enters the number of a source that has one. -/
def enter (paths : Table Document) (path source : Document) : Except Fault (Table Document) := do
  if ← source.mentions "id" then
    let id ← source.member "id"
    if id.isKey then .ok (paths.insert id path) else .error .mismatch
  else .ok paths

/-- Enters the numbers of sources, one after the other. -/
def enterAll (paths : Table Document) :
    List (Document × Document) → Except Fault (Table Document)
  | [] => .ok paths
  | (path, source) :: rest => do
    let paths ← enter paths path source
    enterAll paths rest

/-- The sources of a compilation, from its input and its output. -/
def ofCompilation (input output : Document) : Except Fault Sources := do
  let sources ← output.memberOr "sources" (.record [])
  let paths ← enterAll .empty (← sources.entries)
  let contents ← input.memberOr "sources" (.record [])
  .ok ⟨paths, contents⟩

/-- The text of a source, where it is known. It must have a form in UTF-8. -/
def content? (s : Sources) (path : Document) : Except Fault (Option String) := do
  let files ← match s.contents.table? with
    | some table => .ok table
    | none => .error .unsupported
  let source := (files.find? path).getD (.record [])
  match ← source.memberOrNull "content" with
  | .null => .ok none
  | .text content => .ok (some content)
  | .unpaired content => .error (.rejected (.unencodable content))
  | _ => .error .unsupported

/-- The lines of a source, or none where its text is not known. -/
def lines (s : Sources) (path : Document) : Except Fault (Option LineTable) := do
  .ok ((← s.content? path).map LineTable.ofText)

/-- A place that is not known. -/
def unknown : Document := .text "unknown"

variable [NestingLimits]

/-- The path and the line of an offset, or the path alone where there is no line table. -/
def placeIn (path : Document) (lines : Option LineTable) (start : Int) : Except Fault Document :=
  match lines with
  | none => .ok path
  | some lines => do .ok (.text ((← path.shown) ++ ":" ++ toString (lines.lineOf start)))

/-- The path and the line of an offset in a source, or the path alone where the text is not known.
-/
def place (s : Sources) (path : Document) (start : Int) : Except Fault Document := do
  placeIn path (← s.lines path) start

/-! ## Locating nodes -/

/-- The line tables that have been made so far, by the numbers of sources: none where the text of a
source is not known. -/
abbrev LineTables := List (Int × Option LineTable)

/-- The line table of a source, which is made when it is asked for the first time, and the tables
that are kept from then on. -/
def linesOf (s : Sources) (kept : LineTables) (source : Int) (path : Document) :
    Except Fault (Option LineTable × LineTables) :=
  match kept.lookup source with
  | some lines => .ok (lines, kept)
  | none => do
    let lines ← s.lines path
    .ok (lines, (source, lines) :: kept)

/-- The source reference of a node, as it is written and as it is read. -/
def referenceOf (node : Document) : Except Fault (Document × SourceReference) := do
  let src ← node.member "src"
  .ok (src, ← SourceReference.ofDocument src)

/-- Where a node of the syntax tree stands, and the line tables that are kept from then on. -/
def locateKeeping (s : Sources) (kept : LineTables) (node : Document) :
    Logged Document × LineTables :=
  match referenceOf node with
  | .error fault => (.of (.error fault), kept)
  | .ok (src, reference) =>
    match s.paths.find? (.int reference.source) with
    | none => (do
        Logged.report .debug .sources "Source id not found in compiler output" [("src", src)]
        pure unknown, kept)
    | some path => match s.linesOf kept reference.source path with
      | .error fault => (.of (.error fault), kept)
      | .ok (lines, kept) => (.of (placeIn path lines reference.start), kept)

/-- Where nodes stand, one after the other, with the line tables that are made on the way. -/
def locateAll (s : Sources) (kept : LineTables) : List Document → List (Logged Document)
  | [] => []
  | node :: rest =>
    let (found, kept) := s.locateKeeping kept node
    found :: locateAll s kept rest

/-- Where a node of the syntax tree stands. -/
def locate (s : Sources) (node : Document) : Logged Document := (s.locateKeeping [] node).1

end Sources

/-- Leaves the reference of a node as it is. -/
def plainLocate (node : Document) : Logged Document := do
  let src ← node.member "src"
  pure src

end SlotSafe
