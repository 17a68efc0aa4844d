import SlotSafe.CommandLine.Invocation
import SlotSafe.Loading
import SlotSafe.Log.Setup
import SlotSafe.Report

/-!
# Running a command

A run takes a directory, an environment and a command line, and ends with what it printed, the
events it logged, and the directory as it left it. Expected faults, those in the input or the
files, end the run with an event and the exit code 1; any other fault escapes.

Events are computed beside the result, and the settings of the log decide which of them are shown.
Nothing else in the outcome depends on them, unless an event that is to be shown cannot be: it ends
the run in its place. Every event that may not be shown comes before anything is printed or written.
-/

namespace SlotSafe

/-- Whether a fault is expected: one in the input, in a value or in a file, not one that a value of
an unexpected kind brings about. -/
def Fault.isExpected : Fault → Bool
  | .missingKey _ => false
  | .mismatch => false
  | .unsupported => false
  | .tooDeep _ => false
  | .json error => match error with
    | .tooDeep _ => false
    | _ => true
  | .yaml error => match error with
    | .integer _ => true
    | .number _ => true
    | .moment _ => true
    | .codePoint => true
    | _ => false
  | _ => true

namespace CommandLine

variable [NestingLimits]

/-- What a command has done when it comes to its end: what it printed, the directory, and the exit
code unless a fault stopped it while it wrote. -/
structure Finish where
  stdout : List Char
  directory : Directory
  status : Except Fault Nat

/-- Ends with a printed line. -/
def finishLine (d : Directory) (line : String) (code : Nat) : Finish :=
  ⟨line.toList ++ ['\n'], d, .ok code⟩

/-- Ends with a printed document. -/
def finishDocument (d : Directory) (format : DataFormat) (shown : Document) (code : Nat) : Finish :=
  let w := format.write shown
  ⟨w.chars, d, match Fault.ofWriting? w with
    | none => .ok code
    | some fault => .error fault⟩

/-- How results are to be shown. -/
structure Display where
  form : OutputFormat
  /-- Whether the form was left with nothing, which is found out when something is shown. -/
  lacksForm : Bool
  color : Bool
  deriving DecidableEq, Repr

/-- The format of shown documents, if results are not shown as text. -/
def Display.format? (display : Display) : Except Fault (Option DataFormat) :=
  if display.lacksForm then .error (.rejected (.outputFormat "[]"))
  else match display.form with
    | .text => .ok none
    | .json => .ok (some .json)
    | .yaml => .ok (some .yaml)

/-- A path of which something is left. -/
def operandPath : Option String → Except Fault String
  | some path => .ok path
  | none => .error .mismatch

/-- The query for a contract. -/
def queryOf : Option String → Compilation.Query
  | some name => .ofText name
  | none => .nothing

/-- Writes the layout of a contract into a file, or shows it. -/
def extractLayout (d : Directory) (buildInfo contract : Option String) (output : Option String)
    (format : Option DataFormat) : Logged Finish := do
  let layout ← d.extractedLayout 1 (← operandPath buildInfo) (queryOf contract)
  let shown := layout.toDocument
  match output.filter (fun path => !path.isEmpty) with
  | none => pure (finishDocument d (format.getD .json) shown 0)
  | some path =>
    let w := (format.getD (.ofPath path)).write shown
    let written ← d.write path w.chars
    match Fault.ofWriting? w with
    | none =>
      Logged.report .info .commandLine "Saved storage layout"
        [("path", Document.text path), ("variables", .count layout.size)]
      pure ⟨[], written, .ok 0⟩
    | some fault => pure ⟨[], written, .error fault⟩

/-- The two layouts of an upgrade, which must be such that they can be compared. -/
def upgradeLayouts (d : Directory) (original updated : Option String) (contract : Option String) :
    Logged (Layout × Layout) := do
  let before ← d.layout 1 (← operandPath original) contract
  let after ← d.layout 2 (← operandPath updated) contract
  Upgrade.mustCompare before after
  pure (before, after)

/-- Shows what an upgrade does. -/
def showUpgrade (display : Display) (d : Directory) (original updated : Option String)
    (contract : Option String) : Logged Finish := do
  let (before, after) ← upgradeLayouts d original updated contract
  let changes := Upgrade.operations before after
  match ← display.format? with
  | none => pure (finishLine d (← Report.operationsText before after changes) 0)
  | some format => pure (finishDocument d format (Report.operationsDocument changes) 0)

/-- The unsafe changes of an upgrade, with an event. -/
def judgeUpgrade (original updated : Layout) : Logged (List UpgradeError) := do
  let errors := Upgrade.errors original updated
  if errors.isEmpty then
    Logged.report .debug .upgrade "Storage layout is compatible"
      [("original_variables", .count original.size), ("updated_variables", .count updated.size)]
  else
    Logged.report .debug .upgrade "Storage layout is incompatible" [("errors", .count errors.length)]
  pure errors

/-- Shows the unsafe changes of an upgrade, with an exit code. -/
def showErrors (display : Display) (d : Directory) (errors : List UpgradeError) (code : Nat) :
    Logged Finish := do
  match ← display.format? with
  | some format => pure (finishDocument d format (Report.checkDocument errors) code)
  | none =>
    if errors.isEmpty then pure (finishLine d "Storage layout is compatible." code)
    else pure (finishLine d (← Report.errorText display.color errors) code)

/-- Tells whether an upgrade is safe. -/
def checkUpgrade (display : Display) (d : Directory) (original updated : Option String)
    (contract : Option String) : Logged Finish := do
  let (before, after) ← upgradeLayouts d original updated contract
  let errors ← judgeUpgrade before after
  if !errors.isEmpty then
    Logged.report .error .commandLine "Storage layout is incompatible"
      [("errors", .count errors.length)]
  showErrors display d errors (if errors.isEmpty then 0 else 1)

/-- Carries out a command. -/
def Command.perform (display : Display) (d : Directory) : Command → Logged Finish
  | .extract buildInfo contract output format => extractLayout d buildInfo contract output format
  | .diff original updated contract => showUpgrade display d original updated contract
  | .check original updated contract => checkUpgrade display d original updated contract

/-! ## The whole run -/

/-- How a run ends. -/
inductive Ending where
  | exit (code : Nat)
  /-- A fault that was not expected. -/
  | escaped (fault : Fault)

/-- What a run leaves. -/
structure Outcome where
  ending : Ending
  stdout : List Char := []
  /-- The messages on the error channel, without help and usage. -/
  errors : List String := []
  /-- The lines of the log. -/
  lines : List Document := []
  directory : Directory

/-- The end that a fault leads to, with the event of an expected one. -/
def endFault (fault : Fault) : Ending × List LogEvent :=
  if fault.isExpected then
    (.exit 1, [⟨.error, .commandLine, "Storage check failed", [("error", Document.text fault.message)]⟩])
  else (.escaped fault, [])

/-- What a command has come to. A fault before its end leaves nothing printed and nothing written. -/
def finishOf (d : Directory) (result : Except Fault Finish) : Finish :=
  match result with
  | .ok finish => finish
  | .error fault => ⟨[], d, .error fault⟩

/-- What a command leaves, its events being shown under a setup of the log. -/
def conclude (setup : LogSetup) (d : Directory) (work : Logged Finish) : Outcome :=
  let shown := setup.shown work.events
  let finish := match shown.fault with
    | some fault => finishOf d (.error fault)
    | none => finishOf d work.result
  let (ending, events) := match finish.status with
    | .ok code => (.exit code, [])
    | .error fault => endFault fault
  { ending, stdout := finish.stdout, lines := shown.lines ++ (setup.shown events).lines,
    directory := finish.directory }

/-- Carries out an invocation. The option to show all events takes effect after the log has been
set up. -/
def Invocation.perform (i : Invocation) (d : Directory) : Outcome :=
  if i.lacksLogLevel then { ending := .escaped .unsupported, directory := d }
  else
    let s := i.settings
    let (setup, first) := LogSetup.start s.logLevel.number s.logLevel.choice s.logFormat.choice
    let display : Display := ⟨s.outputFormat, i.lacksOutputFormat, s.color⟩
    let o := conclude (if i.verbose then setup.showAll else setup) d (i.command.perform display d)
    { o with lines := first ++ o.lines }

/-- The end of a run whose command line is refused. -/
def refuse (d : Directory) (r : Refused) : Outcome :=
  match r.refusal with
  | .help => { ending := .exit 0, directory := d }
  | .error e => { ending := .exit 2, errors := [usageLine r.command e], directory := d }

/-- Runs the program in a directory, with an environment and a command line. -/
def run (d : Directory) (environment : List (String × String)) (words : List String) : Outcome :=
  match Settings.ofEnvironment environment with
  | .error fault => { ending := .exit 1, errors := ["Error: " ++ fault.message], directory := d }
  | .ok settings => match read settings words with
    | .error refused => refuse d refused
    | .ok invocation => invocation.perform d

end CommandLine

end SlotSafe
