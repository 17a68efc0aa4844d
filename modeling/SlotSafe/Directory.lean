import SlotSafe.Fault
import SlotSafe.Text.LineEnd
import SlotSafe.Text.Parts

/-!
# Directories of files

A run reads and writes files around one directory. A path names a place part by part: every part
that is passed must name a directory, a part that is empty or a single point stays where it is,
and two points lead back. Places above the directory begin with two points, and places that are
counted from the root of all directories with a slash.

A directory is known by its entries alone: a name that begins the place of an entry is a directory
too, and so is every place above.
-/

namespace SlotSafe

/-- What a file holds. -/
inductive Content where
  /-- A file that was written as text. -/
  | text (chars : List Char)
  /-- A file that may not be text. -/
  | octets (bytes : List UInt8)
  deriving DecidableEq, Repr

namespace Content

/-- The number of octets that are read at a time by a reader that does not read all at once. -/
def blockSize : Nat := 8192

/-- A text without a carriage return at its end. -/
def withoutLastReturn (s : List Char) : List Char :=
  if s.getLast? = some '\r' then s.dropLast else s

/-- The text of octets that are read all at once, or nothing of it before a fault. -/
def readWhole (bytes : List UInt8) : List Char × Option Text.Utf8.DecodeError :=
  match Text.Utf8.decode bytes with
  | .ok chars => (Text.unifyLineEnds chars, none)
  | .error e => ([], some e)

/-- The text of octets that are read in blocks, up to the block with a fault. What a carriage
return at the end of a block stands for is not known before the next block has been read. -/
def readBlocks (bytes : List UInt8) : List Char × Option Text.Utf8.DecodeError :=
  match Text.Utf8.decodeIn blockSize bytes with
  | (chars, none) => (Text.unifyLineEnds chars, none)
  | (chars, some e) => (Text.unifyLineEnds (withoutLastReturn chars), some e)

/-- The text that a file holds, its line ends unified, as far as it can be read. `whole` tells
whether its octets are read all at once, which shows only where there is a fault. -/
def read (whole : Bool) : Content → List Char × Option Text.Utf8.DecodeError
  | .text chars => (Text.unifyLineEnds chars, none)
  | .octets bytes => if whole then readWhole bytes else readBlocks bytes

end Content

/-- What stands at a place of a directory. -/
inductive Entry where
  | file (content : Content)
  | directory
  deriving DecidableEq, Repr

/-- A place: the names that lead there. -/
abbrev Place := List String

/-- The entries of a directory. -/
structure Directory where
  entries : List (Place × Entry)
  deriving DecidableEq, Repr

namespace Directory

/-- The directory without entries. -/
def empty : Directory := ⟨[]⟩

/-- What stands at a place. -/
def entry? (d : Directory) (place : Place) : Option Entry :=
  match d.entries.lookup place with
  | some entry => some entry
  | none => if d.entries.any (fun e => place.isPrefixOf e.1) then some .directory else none

/-- Puts an entry at a place, instead of the one that stands there. -/
def put (d : Directory) (place : Place) (entry : Entry) : Directory :=
  if d.entries.any (fun e => e.1 == place) then
    ⟨d.entries.map fun e => if e.1 == place then (place, entry) else e⟩
  else ⟨d.entries ++ [(place, entry)]⟩

/-! ## Places -/

/-- Where a path leads. -/
inductive Destination where
  | directory (place : Place)
  | file (content : Content)
  | missing
  /-- A file stands where the path goes on. -/
  | blocked
  /-- A part has more octets than a name may have, or the path more than a path. -/
  | tooLong

/-- The most octets that a name may have. -/
def nameLimit : Nat := 255

/-- The most octets that a path may have. -/
def pathLimit : Nat := 4095

/-- Whether a part of a path stays where it is. -/
def staysHere (part : String) : Bool := part = "" || part = "."

/-- The place of the root of all directories. -/
def root : Place := ["/"]

/-- The place that holds a place. The root holds itself. -/
def parent (place : Place) : Place :=
  if place = root then root
  else if place.all (· == "..") then place ++ [".."]
  else place.dropLast

/-- Follows parts of a path from a directory on. -/
def follow (d : Directory) (here : Place) : List String → Destination
  | [] => .directory here
  | part :: rest =>
    if staysHere part then follow d here rest
    else if part = ".." then follow d (parent here) rest
    else if nameLimit < part.utf8ByteSize then .tooLong
    else match d.entry? (here ++ [part]) with
      | none => .missing
      | some .directory => follow d (here ++ [part]) rest
      | some (.file content) => if rest.isEmpty then .file content else .blocked

/-- The parts of a path between slashes. -/
def pathParts (path : String) : List String :=
  (Text.parts '/' path.toList).map String.ofList

/-- The place where a path starts. -/
def origin (path : String) : Place := if path.toList.head? = some '/' then root else []

/-- Where a path leads. The empty path leads nowhere. -/
def destination (d : Directory) (path : String) : Destination :=
  if path.isEmpty || path.toList.contains '\x00' then .missing
  else if pathLimit < path.utf8ByteSize then .tooLong
  else d.follow (origin path) (pathParts path)

/-- Whether a path leads to a file or a directory. -/
def exists? (d : Directory) (path : String) : Bool :=
  match d.destination path with
  | .directory _ => true
  | .file _ => true
  | _ => false

/-! ## Reading -/

/-- What a file holds. -/
def content (d : Directory) (path : String) : Except Fault Content :=
  match d.destination path with
  | .file content => .ok content
  | .directory _ => .error (.isDirectory path)
  | .blocked => .error (.notDirectory path)
  | .missing => .error (.parentMissing path)
  | .tooLong => .error (.nameTooLong path)

/-! ## Writing -/

/-- The place that a path names for a file to be written. Its directory must exist, and no
directory may stand there. -/
def placeFor (d : Directory) (path : String) : Except Fault Place :=
  if path.toList.contains '\x00' then .error (.rejected .nullInPath)
  else if pathLimit < path.utf8ByteSize then .error (.nameTooLong path)
  else
    let parts := (pathParts path).reverse
    let named := parts.dropWhile (· == "")
    match named with
    | [] => .error (.isDirectory path)
    | last :: before =>
      match d.follow (origin path) before.reverse with
      | .directory place =>
        if named.length != parts.length || last = "." || last = ".." then .error (.isDirectory path)
        else if nameLimit < last.utf8ByteSize then .error (.nameTooLong path)
        else if d.entry? (place ++ [last]) = some .directory then .error (.isDirectory path)
        else .ok (place ++ [last])
      | .missing => .error (.parentMissing path)
      | .tooLong => .error (.nameTooLong path)
      | _ => .error (.notDirectory path)

/-- Writes a text into a file, instead of what the file holds. -/
def write (d : Directory) (path : String) (chars : List Char) : Except Fault Directory := do
  let place ← d.placeFor path
  .ok (d.put place (.file (.text chars)))

end Directory

end SlotSafe
