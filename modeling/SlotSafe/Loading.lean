import SlotSafe.Compilation
import SlotSafe.DataFormat
import SlotSafe.Directory
import SlotSafe.Layout.Snapshot

/-!
# Loading documents and layouts

A layout is loaded from a snapshot or extracted from the build info of a compilation, and a file
that may be either is told apart by its contents. Every reading of a file has a number, which tells
what is read from what other readings find, in the same file too.
-/

namespace SlotSafe.Directory

variable [NestingLimits]

/-- The document that a file holds, in a format. -/
def documentIn (d : Directory) (reading : Nat) (format : DataFormat) (path : String) :
    Except Fault Document := do
  let (chars, undecoded) := (← d.content path).read format.isReadWhole
  format.read reading chars undecoded

/-- The document that a file holds. -/
def document (d : Directory) (reading : Nat) (path : String) : Except Fault Document :=
  if d.exists? path then d.documentIn reading (.ofPath path) path else .error (.fileMissing path)

/-- The layout of a snapshot file. -/
def snapshot (d : Directory) (reading : Nat) (path : String) : Except Fault Layout := do
  let found ← d.document reading path
  if found.isMap then Layout.ofDocument found else .error (.malformed (.noSnapshot path))

/-- The version of the compiler, as the build info names it. -/
def compilerVersion (info : Document) : Except Fault Document := do
  let short ← info.memberOrNull "solcVersion"
  if short.isSet then .ok short else info.memberOrNull "solcLongVersion"

/-- The input and the output of the compilation that a build info file bundles, which is always
JSON. -/
def buildInfo (d : Directory) (reading : Nat) (path : String) : Logged (Document × Document) := do
  if !d.exists? path then throw (.buildInfoMissing path)
  let info ← d.documentIn reading .json path
  if !Compilation.isBuildInfo info then throw (.rejected (.buildInfoShape path))
  let version ← compilerVersion info
  Logged.report .info .compilation "Loaded build info"
    [("path", Document.text path), ("solc_version", version)]
  pure (← info.member "input", ← info.member "output")

/-- The layout of a contract in a build info file. -/
def extractedLayout (d : Directory) (reading : Nat) (path : String)
    (query : Compilation.Query) : Logged Layout := do
  let (input, output) ← d.buildInfo reading path
  Compilation.layout input output query

/-- The layout that a file holds, as a snapshot or as build info. Of build info a contract must be
named. -/
def layout (d : Directory) (reading : Nat) (path : String) (contract : Option String) :
    Logged Layout := do
  let found ← d.document reading path
  if Compilation.isBuildInfo found then
    match contract with
    | some name =>
      if name.isEmpty then throw (.rejected (.contractRequired path))
      Compilation.layout (← found.member "input") (← found.member "output") (.ofText name)
    | none => throw (.rejected (.contractRequired path))
  else
    if !found.isMap then throw (.rejected (.layoutFile path))
    Logged.report .debug .commandLine "Loaded storage layout snapshot" [("path", Document.text path)]
    Layout.ofDocument found

end SlotSafe.Directory
