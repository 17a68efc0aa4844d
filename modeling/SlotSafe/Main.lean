import SlotSafe.CommandLine.Run
import SlotSafe.Json.Line

/-!
# The program

What the command line names is read into a directory, the run is computed, and what it printed,
logged and wrote is put out.
-/

namespace SlotSafe.CommandLine

/-- The variables of the environment that settings are made of. -/
def environmentNames : List String :=
  ["STORAGE_GUARD_LOG_LEVEL", "STORAGE_GUARD_LOG_FORMAT", "STORAGE_GUARD_OUTPUT_FORMAT",
    "STORAGE_GUARD_COLOR", "NO_COLOR"]

/-- The variables that are set. -/
def readEnvironment : IO (List (String × String)) := do
  let found ← environmentNames.mapM fun name => do
    return (← IO.getEnv name).map fun value => (name, value)
  return found.filterMap id

/-- The paths that a command names. -/
def Command.paths : Command → List String
  | .extract buildInfo _ output _ => buildInfo.toList ++ output.toList
  | .diff original updated _ => original.toList ++ updated.toList
  | .check original updated _ => original.toList ++ updated.toList

/-- The paths that a command line names, if it is carried out. -/
def namedPaths (environment : List (String × String)) (words : List String) : List String :=
  match Settings.ofEnvironment environment with
  | .error _ => []
  | .ok settings => match read settings words with
    | .error _ => []
    | .ok invocation => invocation.command.paths

/-- The beginnings of a path, the shortest first, each with its place. -/
def beginnings (path : String) : List (String × Place) :=
  let parts := Directory.pathParts path
  (List.range parts.length).map fun n =>
    let passed := parts.take (n + 1)
    let place := passed.foldl (fun here part =>
      if Directory.staysHere part then here
      else if part = ".." then Directory.parent here
      else here ++ [part]) (Directory.origin path)
    ("/".intercalate passed, place)

/-- Enters what stands at a path. What can be found but not read is a directory. -/
def enter (d : Directory) (path : String) (place : Place) : IO Directory := do
  if path.isEmpty then return d
  match ← (IO.FS.readBinFile path).toBaseIO with
  | .ok octets => return d.put place (.file (.octets octets.toList))
  | .error e => match e with
    | .noFileOrDirectory .. => return d
    | _ => return d.put place .directory

/-- The part of the file system that a command line names. -/
def readDirectory (paths : List String) : IO Directory :=
  (paths.flatMap beginnings).foldlM (fun d (path, place) => enter d path place) Directory.empty

/-- The path of a place. -/
def pathOf (place : Place) : String :=
  if place.head? = some "/" then "/" ++ "/".intercalate place.tail else "/".intercalate place

/-- Writes the files that a run wrote. -/
def writeFiles (before after : Directory) : IO Unit := do
  for (place, entry) in after.entries do
    if let .file (.text chars) := entry then
      if before.entry? place != some entry then
        IO.FS.writeFile (pathOf place) (String.ofList chars)

end SlotSafe.CommandLine

open SlotSafe SlotSafe.CommandLine in
/-- Runs the program on the command line. -/
def main (words : List String) : IO UInt32 := do
  let environment ← readEnvironment
  let d ← readDirectory (namedPaths environment words)
  let outcome := run d environment words
  for line in outcome.errors do IO.eprintln line
  for d in outcome.lines do IO.eprintln (String.ofList (Json.line d).chars)
  IO.print (String.ofList outcome.stdout)
  writeFiles d outcome.directory
  match outcome.ending with
  | .exit code => return UInt32.ofNat code
  | .escaped fault => do
    IO.eprintln fault.message
    return 1
