import SlotSafe.Json.Reader
import SlotSafe.Text.Utf8
import SlotSafe.UpgradeError
import SlotSafe.Yaml.ReadError

/-!
# Faults

Everything that can end a computation early, by its cause, and the message of each cause. A message
that names a document can lack its text only where the document cannot be shown, and then another
fault comes before it.
-/

namespace SlotSafe

/-- Input that does not have the shape a compiler or a snapshot gives it. -/
inductive Malformation where
  /-- A snapshot lacks a member. -/
  | missingMember (name : String)
  | storageShape
  | typesShape
  /-- Items refer to types that the layout does not describe. -/
  | unknownTypes (names : List String)
  | noSnapshot (path : String)
  | unnamedVariable (contract : String)
  | untypedVariable (name : String)

/-- A value that is not accepted. -/
inductive Rejection where
  | contractMissing (name : String)
  | contractAmbiguous (name : String) (candidates : List String)
  | baseMissing (id contract : String)
  /-- A source reference without exactly three parts. -/
  | sourceReference (text : String)
  | integer (error : Decimal.IntegerError)
  /-- A text without a form in UTF-8. -/
  | unencodable (text : Text.Unpaired)
  | buildInfoShape (path : String)
  | contractRequired (path : String)
  | layoutFile (path : String)
  | outputFormat (name : String)
  /-- A path with a null character in it. -/
  | nullInPath
  /-- An integer with more digits than are written. -/
  | tooManyDigits
  /-- A list or map that holds itself. -/
  | circular
  /-- A name that is taken and names no level of events. -/
  | unknownLevel (name : String)
  /-- A setting that is none of the supported ones. -/
  | setting (what value : String) (supported : List String)

/-- What lists and maps are followed for into their depth. -/
inductive Pursuit where
  | comparing
  | showing
  | writing
  | logging
  deriving DecidableEq, Repr

/-- Why a computation ends early. -/
inductive Fault where
  | malformed (cause : Malformation)
  | incompatible (errors : List UpgradeError)
  | rejected (cause : Rejection)
  /-- A map without the wanted key. -/
  | missingKey (key : Document)
  | fileMissing (path : String)
  | buildInfoMissing (path : String)
  /-- A file cannot be made because its directory does not exist. -/
  | parentMissing (path : String)
  | isDirectory (path : String)
  /-- A file stands where a directory is needed. -/
  | notDirectory (path : String)
  | nameTooLong (path : String)
  | undecodable (error : Text.Utf8.DecodeError)
  | json (error : Json.ReadError)
  | yaml (error : Yaml.ReadError)
  /-- A value of a kind that the operation is not defined for. -/
  | mismatch
  /-- A value of a kind that lacks the operation. -/
  | unsupported
  /-- Lists and maps that lie too deep inside one another. -/
  | tooDeep (pursuit : Pursuit)

/-- The fault of something that has no written form. -/
def Fault.ofObstacle (pursuit : Pursuit) : Obstacle → Fault
  | .kind => .mismatch
  | .digits => .rejected .tooManyDigits
  | .circular => .rejected .circular
  | .depth => .tooDeep pursuit

/-- The fault of a writing that has stopped. -/
def Fault.ofWriting? (w : Writing) : Option Fault := w.obstacle.map (.ofObstacle .writing)

variable [NestingLimits]

/-- A document as it stands in a message. -/
def Document.shown (d : Document) : Except Fault String :=
  d.display.mapError (.ofObstacle .showing)

/-- The cause in words. -/
def Malformation.message : Malformation → String
  | .missingMember name => "Invalid storage layout snapshot: missing key " ++ Text.quoted name
  | .storageShape => "Invalid storage layout snapshot: 'storage' must be a list of mappings"
  | .typesShape => "Invalid storage layout snapshot: 'types' must be a mapping of mappings"
  | .unknownTypes names => "Storage layout references unknown types: " ++ ", ".intercalate names
  | .noSnapshot path => "Storage layout snapshot must be a mapping: " ++ path
  | .unnamedVariable contract =>
    "Variable declaration in contract " ++ contract ++ " has no name or src attribute"
  | .untypedVariable name => "Variable '" ++ name ++ "' has no type identifier or type string"

/-- The error in words, naming the surrogates and their place. -/
def unencodableMessage (u : Text.Unpaired) : String :=
  let place :=
    if u.count = 1 then
      "character '\\u" ++ String.ofList (Text.hex 4 u.first.unit) ++ "' in position "
        ++ toString u.offset
    else
      "characters in position " ++ toString u.offset ++ "-" ++ toString (u.offset + u.count - 1)
  "'utf-8' codec can't encode " ++ place ++ ": surrogates not allowed"

/-- The cause in words. -/
def Rejection.message : Rejection → String
  | .contractMissing name => "Contract " ++ name ++ " not found in compilation output"
  | .contractAmbiguous name candidates =>
    "Contract name " ++ name ++ " is ambiguous, use a fully qualified name: "
      ++ ", ".intercalate candidates
  | .baseMissing id contract =>
    "Base contract with id " ++ id ++ " of " ++ contract ++ " not found in compilation output"
  | .sourceReference text => "Invalid src attribute: " ++ Text.quoted text
  | .integer error => error.message
  | .unencodable text => unencodableMessage text
  | .buildInfoShape path => "Unrecognized build info format: " ++ path
  | .contractRequired path => "--contract is required to read build info file " ++ path
  | .layoutFile path => "Unrecognized layout file: " ++ path
  | .nullInPath => "embedded null byte"
  | .tooManyDigits =>
    "Exceeds the limit (" ++ toString Decimal.digitLimit
      ++ " digits) for integer string conversion; use sys.set_int_max_str_digits() to increase"
      ++ " the limit"
  | .circular => "Circular reference detected"
  | .unknownLevel name => "Unknown level: " ++ Text.quoted name
  | .outputFormat name => "Unsupported format: " ++ name
  | .setting what value supported =>
    "Unsupported " ++ what ++ ": " ++ value ++ ". Supported: " ++ ", ".intercalate supported

/-- The error in words, naming the octets and their place. -/
def undecodableMessage (e : Text.Utf8.DecodeError) : String :=
  let place :=
    if e.length = 1 then
      "byte 0x" ++ String.ofList (Text.hex 2 e.first.toNat) ++ " in position " ++ toString e.offset
    else
      "bytes in position " ++ toString e.offset ++ "-" ++ toString (e.offset + e.length - 1)
  "'utf-8' codec can't decode " ++ place ++ ": " ++ e.reason.text

/-- What is said of things that lie too deep inside one another. -/
def depthMessage : String := "maximum recursion depth exceeded"

/-- What is said of the purpose for which they were followed. -/
def Pursuit.text : Pursuit → String
  | .comparing => " in comparison"
  | .showing => " while getting the repr of an object"
  | .writing => " while calling a Python object"
  | .logging => " while encoding a JSON object"

/-- The error in words, for those errors of a YAML text that come from a value and not from the
form of the text. -/
def yamlMessage : Yaml.ReadError → String
  | .noDigits => "string index out of range"
  | .integer error => error.message
  | .number text => "could not convert string to float: " ++ Text.quoted text
  | .moment error => error.message
  | .codePoint => "chr() arg not in range(0x110000)"
  | .wideCodePoint => "Python int too large to convert to C int"
  | .overflow => "int too large to convert to float"
  | .endless => depthMessage
  | .tooDeep => depthMessage ++ " while calling a Python object"
  | .truthWord word => Text.quoted word
  | _ => ""

/-- The fault in words. -/
def Fault.message : Fault → String
  | .malformed cause => cause.message
  | .incompatible errors => (UpgradeError.summary errors).toOption.getD UpgradeError.heading
  | .rejected cause => cause.message
  | .missingKey key => key.writtenOut.toOption.getD ""
  | .fileMissing path => "File not found: " ++ path
  | .buildInfoMissing path => "Build info file not found: " ++ path
  | .parentMissing path => "[Errno 2] No such file or directory: " ++ Text.quoted path
  | .isDirectory path => "[Errno 21] Is a directory: " ++ Text.quoted path
  | .notDirectory path => "[Errno 20] Not a directory: " ++ Text.quoted path
  | .nameTooLong path => "[Errno 36] File name too long: " ++ Text.quoted path
  | .undecodable error => undecodableMessage error
  | .json error => error.message
  | .yaml error => yamlMessage error
  | .mismatch => ""
  | .unsupported => ""
  | .tooDeep pursuit => depthMessage ++ pursuit.text

end SlotSafe
