import SlotSafe.Yaml.ReadError

/-!
# Tokens of a YAML text

Where a text stops being well formed its tokens end with the reason, so that what the tokens before
it say can be read and judged first.
-/

namespace SlotSafe.Yaml

/-- What a directive says. -/
inductive Directive where
  /-- The version of the language, of which the first number counts. -/
  | version (major : Nat)
  /-- What the tags that begin with a handle begin with instead. -/
  | handle (handle stem : String)
  /-- A directive without a meaning here. -/
  | other
  deriving DecidableEq, Repr

/-- A token. Where a block list or block map starts and ends is told by the columns of the text. -/
inductive Token where
  | directive (d : Directive)
  | documentStart
  | documentEnd
  | blockSequenceStart
  | blockMappingStart
  | blockEnd
  | flowSequenceStart
  | flowSequenceEnd
  | flowMappingStart
  | flowMappingEnd
  | blockEntry
  | flowEntry
  | key
  | value
  | alias (name : String)
  | anchor (name : String)
  /-- A tag, with the handle that stands for its beginning, if it has one. -/
  | tag (handle : Option String) (rest : String)
  /-- A scalar, and whether it is plain. -/
  | scalar (text : String) (plain : Bool)
  /-- The place where the text stops being well formed. -/
  | failure (reason : ReadError)
  deriving DecidableEq, Repr

end SlotSafe.Yaml
