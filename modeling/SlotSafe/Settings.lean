import SlotSafe.Fault
import SlotSafe.Log
import SlotSafe.Text.LetterCase

/-!
# Settings

The settings of a run come from the environment, and options of the command line take their place.
The names of levels are accepted in any letter case, and so are the names of formats.
-/

namespace SlotSafe

/-- How logged events are shown. -/
inductive LogFormat where
  | console
  | json
  deriving DecidableEq, Repr

/-- How results are shown. -/
inductive OutputFormat where
  | text
  | json
  | yaml
  deriving DecidableEq, Repr

namespace LogFormat

/-- The name by which a format is chosen. -/
def choice : LogFormat → String
  | console => "console"
  | json => "json"

/-- All formats. -/
def all : List LogFormat := [console, json]

/-- The format chosen by a name. -/
def ofChoice? (name : String) : Option LogFormat := all.find? fun f => f.choice == name

end LogFormat

namespace OutputFormat

/-- The name by which a format is chosen. -/
def choice : OutputFormat → String
  | text => "text"
  | json => "json"
  | yaml => "yaml"

/-- All formats. -/
def all : List OutputFormat := [text, json, yaml]

/-- The format chosen by a name. -/
def ofChoice? (name : String) : Option OutputFormat := all.find? fun f => f.choice == name

end OutputFormat

/-- The settings of a run. -/
structure Settings where
  logLevel : LogLevel := .info
  logFormat : LogFormat := .console
  outputFormat : OutputFormat := .text
  color : Bool := true
  deriving DecidableEq, Repr

namespace Settings

/-- The value of a variable of the environment. -/
def valueOf? (environment : List (String × String)) (name : String) : Option String :=
  environment.lookup name

/-- A setting by the name chosen for it, or its default where none is. -/
def choose {α : Type} (what : String) (names : List String) (ofChoice? : String → Option α)
    (default : α) : Option String → Except Fault α
  | none => .ok default
  | some value => match ofChoice? value with
    | some a => .ok a
    | none => .error (.rejected (.setting what value names))

/-- The values that turn color off. -/
def falseValues : List String := ["0", "false", "no", "off"]

/-- Whether the environment allows color: it is turned off by a false value, and by the mere
presence of `NO_COLOR`. -/
def allowsColor (environment : List (String × String)) : Bool :=
  let value := (valueOf? environment "STORAGE_GUARD_COLOR").getD "1"
  !falseValues.contains (Text.lower value) && (valueOf? environment "NO_COLOR").isNone

/-- The settings that an environment asks for. -/
def ofEnvironment (environment : List (String × String)) : Except Fault Settings := do
  let logLevel ← choose "log level" (LogLevel.all.map LogLevel.choice) LogLevel.ofChoice? .info
    ((valueOf? environment "STORAGE_GUARD_LOG_LEVEL").map Text.upper)
  let logFormat ← choose "log format" (LogFormat.all.map LogFormat.choice) LogFormat.ofChoice?
    .console ((valueOf? environment "STORAGE_GUARD_LOG_FORMAT").map Text.lower)
  let outputFormat ← choose "output format" (OutputFormat.all.map OutputFormat.choice)
    OutputFormat.ofChoice? .text
    ((valueOf? environment "STORAGE_GUARD_OUTPUT_FORMAT").map Text.lower)
  .ok ⟨logLevel, logFormat, outputFormat, allowsColor environment⟩

end Settings

end SlotSafe
