import SlotSafe.CommandLine.Options
import SlotSafe.DataFormat
import SlotSafe.Settings

/-!
# What the command line asks for

The first operand names the command; the options before it hold for every command, and the words
after it belong to the command alone. Words without a place are refused only when all else is in
order. An option or an operand that is left with nothing is accepted; what becomes of it is decided
where it is needed.
-/

namespace SlotSafe.CommandLine

/-- The name of the program. -/
def programName : String := "storage-guard"

/-- What is to be done. -/
inductive Command where
  /-- Write the layout of a contract into a file, or show it. -/
  | extract (buildInfo contract : Option String) (output : Option String)
    (format : Option DataFormat)
  /-- Show what an upgrade does. -/
  | diff (original updated : Option String) (contract : Option String)
  /-- Tell whether an upgrade is safe. -/
  | check (original updated : Option String) (contract : Option String)
  deriving DecidableEq, Repr

/-- A command with the settings that go with it. -/
structure Invocation where
  settings : Settings
  /-- Whether the log level was left with nothing. -/
  lacksLogLevel : Bool
  /-- Whether the form of results was left with nothing. -/
  lacksOutputFormat : Bool
  verbose : Bool
  command : Command
  deriving DecidableEq, Repr

/-! ## Grammars -/

/-- The least important level of events that are shown. -/
def logLevelOption : OptionRule where
  names := ["--log-level"]
  takesValue := true
  choices := some (LogLevel.all.map LogLevel.choice)

/-- How events are shown. -/
def logFormatOption : OptionRule where
  names := ["--log-format"]
  takesValue := true
  choices := some (LogFormat.all.map LogFormat.choice)

/-- How results are shown. -/
def outputFormatOption : OptionRule where
  names := ["--output-format"]
  takesValue := true
  choices := some (OutputFormat.all.map OutputFormat.choice)

/-- Turns color off. -/
def noColorOption : OptionRule := { names := ["--no-color"] }

/-- Shows all events. -/
def verboseOption : OptionRule := { names := ["--verbose", "-v"] }

/-- The contract to extract, which must be named. -/
def extractedContractOption : OptionRule where
  names := ["--contract"]
  takesValue := true
  required := true

/-- The contract to take from build info. -/
def contractOption : OptionRule := { names := ["--contract"], takesValue := true }

/-- The file to write. -/
def outputOption : OptionRule := { names := ["--output", "-o"], takesValue := true }

/-- The format of the file to write. -/
def formatOption : OptionRule where
  names := ["--format"]
  takesValue := true
  choices := some (DataFormat.all.map DataFormat.name)

/-- What the program accepts. -/
def programGrammar : Grammar where
  options := [helpOption, logLevelOption, logFormatOption, outputFormatOption, noColorOption,
    verboseOption]
  operands := ["command"]
  takesAll := true

/-- What `extract` accepts. -/
def extractGrammar : Grammar where
  options := [helpOption, extractedContractOption, outputOption, formatOption]
  operands := ["build_info"]

/-- What `diff` and `check` accept. -/
def comparisonGrammar : Grammar where
  options := [helpOption, contractOption]
  operands := ["original", "updated"]

/-- The names of the commands. -/
def commandNames : List String := ["extract", "diff", "check"]

/-! ## Reading -/

/-- What is left of the value given for an option, the last one if there are several. -/
def Taken.given? (t : Taken) (o : OptionRule) : Option (Option String) := t.options.reverse.lookup o

/-- The value given for an option, if any is left. -/
def Taken.value? (t : Taken) (o : OptionRule) : Option String := (t.given? o).join

/-- Whether an option was given. -/
def Taken.has (t : Taken) (o : OptionRule) : Bool := (t.given? o).isSome

/-- Whether an option was given and left with nothing. -/
def Taken.lacks (t : Taken) (o : OptionRule) : Bool := t.given? o == some none

/-- The operand at a position, if anything is left of it. -/
def Taken.operand (t : Taken) (n : Nat) : Option String := (t.operands[n]?).join

/-- Why the command line is not carried out, and the command whose words are refused. -/
structure Refused where
  command : Option String
  refusal : Refusal
  deriving DecidableEq, Repr

/-- Takes the words of a named command. -/
def takeFor (command : Option String) (g : Grammar) (words : List String) :
    Except Refused Taken :=
  (g.take words).mapError fun r => ⟨command, r⟩

/-- The command of a name, from its words, and the words that have no place. -/
def readCommand (name : String) (words : List String) : Except Refused (Command × List String) := do
  if name = "extract" then
    let t ← takeFor name extractGrammar words
    let contract := t.value? extractedContractOption
    let format := (t.value? formatOption).bind DataFormat.ofName?
    .ok (.extract (t.operand 0) contract (t.value? outputOption) format, t.leftOver)
  else if name = "diff" then
    let t ← takeFor name comparisonGrammar words
    .ok (.diff (t.operand 0) (t.operand 1) (t.value? contractOption), t.leftOver)
  else if name = "check" then
    let t ← takeFor name comparisonGrammar words
    .ok (.check (t.operand 0) (t.operand 1) (t.value? contractOption), t.leftOver)
  else .error ⟨none, .error (.invalidChoice "command" name commandNames)⟩

/-- Settings with those that the options give in place of them. A log in no form is one that is not
observed, as on the console. -/
def Taken.override (t : Taken) (s : Settings) : Settings where
  logLevel := ((t.value? logLevelOption).bind LogLevel.ofChoice?).getD s.logLevel
  logFormat :=
    if t.lacks logFormatOption then .console
    else ((t.value? logFormatOption).bind LogFormat.ofChoice?).getD s.logFormat
  outputFormat := ((t.value? outputFormatOption).bind OutputFormat.ofChoice?).getD s.outputFormat
  color := s.color && !t.has noColorOption

/-- Reads a command line under given settings. -/
def read (settings : Settings) (words : List String) : Except Refused Invocation := do
  let t ← takeFor none programGrammar words
  let (command, leftOver) ←
    readCommand ((t.operand 0).getD "") (t.operands.filterMap id).tail
  let unplaced := t.leftOver ++ leftOver
  if unplaced.isEmpty then
    .ok ⟨t.override settings, t.lacks logLevelOption, t.lacks outputFormatOption,
      t.has verboseOption, command⟩
  else .error ⟨none, .error (.unrecognized unplaced)⟩

/-- The line that tells why words are refused. -/
def usageLine (command : Option String) (e : UsageError) : String :=
  programName ++ (command.map (" " ++ ·)).getD "" ++ ": error: " ++ e.message

end SlotSafe.CommandLine
