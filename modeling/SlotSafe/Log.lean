import SlotSafe.Fault

/-!
# What a computation reports while it runs

A computation may report events before it succeeds or fails. `Logged` keeps the events beside the
result, so that a result never depends on which events are shown: the result of two steps in a row is made
of their results alone (`result_bind`).
-/

namespace SlotSafe

/-- How important an event is. -/
inductive LogLevel where
  | debug
  | info
  | warning
  | error
  | critical
  deriving DecidableEq, Repr

namespace LogLevel

/-- The number by which levels are compared. -/
def number : LogLevel → Nat
  | debug => 10
  | info => 20
  | warning => 30
  | error => 40
  | critical => 50

/-- The name of a level in an event. -/
def name : LogLevel → String
  | debug => "debug"
  | info => "info"
  | warning => "warning"
  | error => "error"
  | critical => "critical"

/-- The name by which a level is chosen. -/
def choice : LogLevel → String
  | debug => "DEBUG"
  | info => "INFO"
  | warning => "WARNING"
  | error => "ERROR"
  | critical => "CRITICAL"

/-- All levels, the least important first. -/
def all : List LogLevel := [debug, info, warning, error, critical]

/-- The level chosen by a name. -/
def ofChoice? (name : String) : Option LogLevel := all.find? fun level => level.choice == name

end LogLevel

/-- The part of the program that reports an event. -/
inductive Component where
  | commandLine
  | compilation
  | extraction
  | sources
  | upgrade
  | logging
  deriving DecidableEq, Repr

/-- The name of a component in an event. -/
def Component.name : Component → String
  | commandLine => "storage_guard.cli"
  | compilation => "storage_guard.utils.solc_output"
  | extraction => "storage_guard.analysis.layout_extractor"
  | sources => "storage_guard.utils.src_decoder"
  | upgrade => "storage_guard.analysis.compatibility"
  | logging => "storage_guard.utils.log"

/-- What an event says under a name: a document, or a number of things. Things that are there to be
counted are few enough for their number to be written. -/
inductive LogValue where
  | document (d : Document)
  | count (n : Nat)

instance : Coe Document LogValue := ⟨.document⟩

/-- A reported event. -/
structure LogEvent where
  level : LogLevel
  component : Component
  event : String
  fields : List (String × LogValue)

/-- A result and the events reported on the way to it. -/
structure Logged (α : Type) where
  events : List LogEvent
  result : Except Fault α

namespace Logged

variable {α β : Type}

/-- A result without events. -/
def of (result : Except Fault α) : Logged α := ⟨[], result⟩

/-- One step after the other; a step that fails is the last. -/
def bind (x : Logged α) (f : α → Logged β) : Logged β :=
  match x.result with
  | .ok a => ⟨x.events ++ (f a).events, (f a).result⟩
  | .error e => ⟨x.events, .error e⟩

instance : Monad Logged where
  pure a := of (.ok a)
  bind := bind

instance : MonadExceptOf Fault Logged where
  throw e := of (.error e)
  tryCatch x f := match x.result with
    | .ok _ => x
    | .error e => ⟨x.events ++ (f e).events, (f e).result⟩

instance : MonadLift (Except Fault) Logged := ⟨of⟩

/-- Reports an event. -/
def report (level : LogLevel) (component : Component) (event : String)
    (fields : List (String × LogValue)) : Logged Unit :=
  ⟨[⟨level, component, event, fields⟩], .ok ()⟩

@[simp] theorem result_pure (a : α) : (pure a : Logged α).result = .ok a := rfl

@[simp] theorem result_of (r : Except Fault α) : (of r).result = r := rfl

@[simp] theorem result_bind (x : Logged α) (f : α → Logged β) :
    (x >>= f).result = x.result >>= fun a => (f a).result := by
  change (bind x f).result = _
  unfold bind
  cases h : x.result <;> rfl

end Logged

end SlotSafe
