/-!
# Limits of nesting

Whatever follows lists and maps into one another gives up at some depth. Where that is depends on what
the program runs on, and not on the program: reading and writing, showing, comparing and logging each
have a limit of their own, and a document that can be read need not be one that can be written or
logged. So the limits are left open. **What is said of a run holds under all limits**
(`NestingLimits`), of which only this is known, that the documents which the program makes itself lie
less deep.
-/

namespace SlotSafe

/-- A format of documents. -/
inductive DataFormat where
  | json
  | yaml
  deriving DecidableEq, Repr

/-- **How many lists and maps are followed into one another** before an operation gives up. -/
class NestingLimits where
  /-- Reading a file of a format. -/
  reading : DataFormat → Nat
  /-- Writing a document in a format. -/
  writing : DataFormat → Nat
  /-- Writing a document out in a message. -/
  showing : Nat
  /-- Telling whether documents are equal. -/
  comparing : Nat
  /-- Giving a document the form that it has in the log. -/
  logging : Nat
  eight_le_reading : ∀ format, 8 ≤ reading format
  eight_le_writing : ∀ format, 8 ≤ writing format
  eight_le_showing : 8 ≤ showing
  eight_le_comparing : 8 ≤ comparing
  eight_le_logging : 8 ≤ logging

/-- Limits of the size that is met with, to run the program under. -/
instance NestingLimits.usual : NestingLimits where
  reading
    | .json => 990
    | .yaml => 490
  writing
    | .json => 992
    | .yaml => 329
  showing := 984
  comparing := 984
  logging := 984
  eight_le_reading format := by cases format <;> decide
  eight_le_writing format := by cases format <;> decide
  eight_le_showing := by decide
  eight_le_comparing := by decide
  eight_le_logging := by decide

end SlotSafe
