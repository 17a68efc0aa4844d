import SlotSafe.Log.Line
import SlotSafe.Text.LetterCase

/-!
# Setting up the log

The log is set up once, with the level below which events are not shown and the name of the form
in which they are. Setting it up again changes nothing. Only events in the form `json` are
observed; in any other form they are shown to a reader, which can fail all the same.
-/

namespace SlotSafe

/-- How the log is set up. -/
structure LogSetup where
  /-- The number of the least important level that is shown. -/
  threshold : Nat
  /-- The name of the form in which events are shown. -/
  form : String
  deriving DecidableEq, Repr

/-- Events as they were shown, up to the first that could not be. -/
structure ShownEvents where
  lines : List Document
  fault : Option Fault

namespace LogSetup

/-! ## Choosing a threshold -/

/-- The names by which thresholds are chosen, in capitals. -/
def thresholds : List (String × Nat) :=
  LogLevel.all.map (fun level => (level.choice, level.number))
    ++ [("WARN", LogLevel.warning.number), ("FATAL", LogLevel.critical.number), ("NOTSET", 0)]

/-- The threshold of a name in any letter case; most other names choose that of `info`. Two names
are taken, for the form of lines and for the table of such forms, and choose none. -/
def thresholdOf (name : String) : Except Fault Nat :=
  let name := Text.upper name
  if name = "BASIC_FORMAT" then
    .error (.rejected (.unknownLevel "%(levelname)s:%(name)s:%(message)s"))
  else if name = "_STYLES" then .error .mismatch
  else .ok ((thresholds.lookup name).getD LogLevel.info.number)

/-! ## Showing events -/

variable [NestingLimits]

/-- Shows an event: the line that is observed, if it is one. -/
def line? (s : LogSetup) (e : LogEvent) : Except Fault (Option Document) :=
  if e.level.number < s.threshold then .ok none
  else if s.form = "json" then e.line.map some
  else e.showReader.map fun _ => none

/-- Shows events one after the other. -/
def shown (s : LogSetup) : List LogEvent → ShownEvents
  | [] => ⟨[], none⟩
  | e :: rest => match s.line? e with
    | .error fault => ⟨[], some fault⟩
    | .ok line =>
      let others := shown s rest
      ⟨line.toList ++ others.lines, others.fault⟩

/-! ## Setting up -/

/-- The event that tells how the log was set up. -/
def event (level form : String) : LogEvent :=
  ⟨.debug, .logging, "Logging configured", [("log_level", Document.text level), ("renderer", Document.text form)]⟩

/-- Sets up the log with a threshold, which a level is the name of: the setup, and what is shown
of the event that tells so. -/
def start (threshold : Nat) (level form : String) : LogSetup × List Document :=
  let s : LogSetup := ⟨threshold, form⟩
  (s, (s.shown [event level form]).lines)

/-- Sets up the log, unless that has been done: the setup that then holds, and what is shown. -/
def configure (current : Option LogSetup) (level form : String) :
    Except Fault (LogSetup × List Document) :=
  match current with
  | some s => .ok (s, [])
  | none => (thresholdOf level).map fun threshold => start threshold level form

/-- Shows events of every level from now on. -/
def showAll (s : LogSetup) : LogSetup := { s with threshold := LogLevel.debug.number }

end LogSetup

end SlotSafe
