import SlotSafe.Decimal.Integer
import SlotSafe.Document
import SlotSafe.NestingLimits
import SlotSafe.Writing

/-!
# What is written once and named again

In a YAML text a list, a map, a set or a moment that stands in several places is written in the
first of them only, under an anchor, and every other place names the anchor. So a document that
holds itself can be written too.

The outline of a document says where that happens. Anchors are numbered in the order in which the
second places come.
-/

namespace SlotSafe.Yaml

/-- A document with its anchors and the places that name them. -/
inductive Outline where
  /-- A place that names an anchor. -/
  | alias (anchor : Nat)
  | scalar (anchor : Option Nat) (d : Document)
  | list (anchor : Option Nat) (items : List Outline)
  /-- A map, or a set, which is a map from its members to null under a tag. -/
  | map (anchor : Option Nat) (isSet : Bool) (entries : List (Outline × Outline))
  deriving Inhabited

/-! ## Surveying a document -/

/-- The identities that have been met, each with the number of its anchor once it has been met
again, and how many numbers have been given. -/
structure Survey where
  met : List (Identity × Option Nat)
  count : Nat

namespace Survey

/-- The survey before anything has been met. -/
def start : Survey := ⟨[], 0⟩

/-- Whether an identity has been met. -/
def knows (s : Survey) (id : Identity) : Bool := s.met.any fun entry => entry.1 == id

/-- Notes an identity that is met for the first time. -/
def meet (s : Survey) (id : Option Identity) : Survey :=
  { s with met := (id.map fun id => (id, none)).toList ++ s.met }

/-- Notes an identity that is met again: it gets a number unless it has one. -/
def meetAgain (s : Survey) (id : Identity) : Survey :=
  match s.met.lookup id with
  | some none =>
    ⟨s.met.map fun entry => if entry.1 == id then (id, some (s.count + 1)) else entry, s.count + 1⟩
  | _ => s

variable [NestingLimits]

/-- Meets what has an identity: again if it is known, else with its parts. -/
def visit (s : Survey) (depth : Nat) (id : Option Identity)
    (parts : Survey → Except Obstacle Survey) : Except Obstacle Survey :=
  match id.filter s.knows with
  | some id => .ok (s.meetAgain id)
  | none => if NestingLimits.writing .yaml ≤ depth then .error .depth else parts (s.meet id)

mutual

/-- Meets a document and all that is in it. -/
def add (depth : Nat) : Document → Survey → Except Obstacle Survey
  | .int n, s => if Decimal.isWritable n then .ok s else .error .digits
  | .moment id _, s => s.visit depth (some id) .ok
  | .pair a b, s => do add (depth + 1) b (← add (depth + 1) a s)
  | .list id items, s => s.visit depth id fun s => addItems (depth + 1) items s
  | .map id entries, s => s.visit depth id fun s => addEntries (depth + 1) entries s
  | .set id members, s => s.visit depth (some id) fun s => addItems (depth + 1) members s
  | .knot _ body, s => add depth body s
  | .loop id, s => .ok (s.meetAgain id)
  | _, s => .ok s

/-- Meets items one after the other. -/
def addItems (depth : Nat) : List Document → Survey → Except Obstacle Survey
  | [], s => .ok s
  | d :: rest, s => do addItems depth rest (← add depth d s)

/-- Meets entries one after the other. -/
def addEntries (depth : Nat) :
    List (Document × Document) → Survey → Except Obstacle Survey
  | [], s => .ok s
  | (k, d) :: rest, s => do addEntries depth rest (← add depth d (← add depth k s))

end

/-- The number of the anchor of an identity that stands in several places. -/
def anchor? (s : Survey) (id : Option Identity) : Option Nat :=
  id.bind fun id => (s.met.lookup id).join

end Survey

/-! ## Outlines -/

namespace Outline

/-- The identities of what has been written. -/
abbrev Done := List Identity

/-- What stands in a place: the name of an anchor if what belongs there has been written, else the
thing itself. -/
def once (survey : Survey) (done : Done) (id : Option Identity)
    (whole : Option Nat → Done → Outline × Done) : Outline × Done :=
  match survey.anchor? id with
  | some n =>
    if id.any done.contains then (.alias n, done) else whole (some n) (id.toList ++ done)
  | none => whole none done

mutual

/-- The outline of a document after what has been written. -/
def trace (survey : Survey) : Document → Done → Outline × Done
  | .moment id m, done =>
    once survey done (some id) fun anchor done => (.scalar anchor (.moment id m), done)
  | .pair a b, done =>
    let (first, done) := trace survey a done
    let (second, done) := trace survey b done
    (.list none [first, second], done)
  | .list id items, done => once survey done id fun anchor done =>
    let (items, done) := traceItems survey items done
    (.list anchor items, done)
  | .map id entries, done => once survey done id fun anchor done =>
    let (entries, done) := traceEntries survey entries done
    (.map anchor false entries, done)
  | .set id members, done => once survey done (some id) fun anchor done =>
    let (members, done) := traceItems survey members done
    (.map anchor true (members.map fun member => (member, .scalar none .null)), done)
  | .knot _ body, done => trace survey body done
  | .loop id, done => (.alias ((survey.anchor? (some id)).getD 0), done)
  | d, done => (.scalar none d, done)

/-- The outlines of items one after the other. -/
def traceItems (survey : Survey) : List Document → Done → List Outline × Done
  | [], done => ([], done)
  | d :: rest, done =>
    let (first, done) := trace survey d done
    let (others, done) := traceItems survey rest done
    (first :: others, done)

/-- The outlines of entries one after the other. -/
def traceEntries (survey : Survey) :
    List (Document × Document) → Done → List (Outline × Outline) × Done
  | [], done => ([], done)
  | (k, d) :: rest, done =>
    let (key, done) := trace survey k done
    let (value, done) := trace survey d done
    let (others, done) := traceEntries survey rest done
    ((key, value) :: others, done)

end

variable [NestingLimits]

/-- The outline of a document, unless something in it cannot be written. -/
def ofDocument (d : Document) : Except Obstacle Outline := do
  let survey ← Survey.start.add 0 d
  .ok (trace survey d []).1

end Outline

end SlotSafe.Yaml
