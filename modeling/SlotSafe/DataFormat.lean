import SlotSafe.Fault
import SlotSafe.Json.Writer
import SlotSafe.Text.LetterCase
import SlotSafe.Yaml.Reader
import SlotSafe.Yaml.Writer

/-!
# Formats of documents

A document is kept as JSON or as YAML. A file tells by the extension of its name which of the two it
holds.
-/

namespace SlotSafe

namespace DataFormat

/-- The name of a format. -/
def name : DataFormat → String
  | json => "json"
  | yaml => "yaml"

/-- All formats. -/
def all : List DataFormat := [json, yaml]

/-- The format of a name. -/
def ofName? (name : String) : Option DataFormat := all.find? fun f => f.name == name

/-- The format of a name, which must be one. -/
def ofName (name : String) : Except Fault DataFormat :=
  match ofName? name with
  | some f => .ok f
  | none => .error (.rejected (.outputFormat name))

/-- The extension of the last part of a path, with its point. Points at the start of a name begin no
extension. -/
def extension (path : String) : List Char :=
  let base := (path.toList.reverse.takeWhile (· != '/')).reverse.dropWhile (· == '.')
  if base.contains '.' then '.' :: (base.reverse.takeWhile (· != '.')).reverse else []

/-- The extensions of YAML files. -/
def yamlExtensions : List String := [".yaml", ".yml"]

/-- The format of a file. -/
def ofPath (path : String) : DataFormat :=
  if yamlExtensions.contains (Text.lower (String.ofList (extension path))) then yaml else json

variable [NestingLimits]

/-- A document as the text of a file. -/
def write : DataFormat → Document → Writing
  | json, d => Json.render d
  | yaml, d => Yaml.render d

/-- The fault of a text that is not YAML. -/
def yamlFault : Yaml.ReadError → Fault
  | .undecodable e => .undecodable e
  | e => .yaml e

/-- The document that the text of a file holds; `reading` is the number of this reading. Where the
text ends in octets that are no text, what comes before them is given. -/
def read (format : DataFormat) (reading : Nat) (s : List Char)
    (undecoded : Option Text.Utf8.DecodeError) : Except Fault Document :=
  match format, undecoded with
  | json, none => (Json.read reading s).mapError .json
  | json, some e => .error (.undecodable e)
  | yaml, _ => (Yaml.read reading s undecoded).mapError yamlFault

/-- Whether a file is read all at once. -/
def isReadWhole : DataFormat → Bool
  | json => true
  | yaml => false

end DataFormat

end SlotSafe
