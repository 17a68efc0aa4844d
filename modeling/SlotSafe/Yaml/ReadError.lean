import SlotSafe.Decimal.Integer
import SlotSafe.Moment
import SlotSafe.Text.Utf8

/-!
# Why a YAML text is not read
-/

namespace SlotSafe.Yaml

/-- Why a YAML text is not read. -/
inductive ReadError where
  /-- Octets that are no text. -/
  | undecodable (error : Text.Utf8.DecodeError)
  /-- A character that may not stand in a YAML text. -/
  | unprintable (c : Char)
  /-- A character with which no token starts. -/
  | strayCharacter
  /-- A quoted text that does not end. -/
  | openQuote
  /-- A document separator inside a quoted text. -/
  | separatorInQuote
  /-- A backslash before something that is no escape. -/
  | unknownEscape
  /-- An escape that names a number beyond the last character. -/
  | codePoint
  /-- An escape that names a number of more than 31 bits. -/
  | wideCodePoint
  /-- A key of a block map without its colon. -/
  | missingColon
  /-- A key, a value or an entry where none may start. -/
  | misplaced
  /-- A directive that is not well formed, or stands twice. -/
  | directive
  /-- The name of an anchor or alias that is empty or runs into something else. -/
  | anchorName
  /-- A tag that is not well formed. -/
  | tagForm
  /-- The first line of a block text that is not well formed. -/
  | blockHeader
  /-- A token that may not follow those before it. -/
  | unexpectedToken
  | undefinedAlias (name : String)
  | repeatedAnchor (name : String)
  | undefinedHandle (handle : String)
  /-- More than one document. -/
  | severalDocuments
  /-- A tag without a meaning here. -/
  | unknownTag
  /-- A tag on a node of the wrong kind. -/
  | unsuitableTag
  /-- A key that is a list, a map or a set. -/
  | unkeyable
  /-- A list of entries that holds something else than maps of one entry. -/
  | entryForm
  /-- Entries that are to be taken over from something else than maps. -/
  | mergeSource
  /-- Maps that stand for one another without end. -/
  | endless
  /-- Lists and maps that lie too deep inside one another. -/
  | tooDeep
  /-- A number without any character besides its sign. -/
  | noDigits
  | integer (error : Decimal.IntegerError)
  | number (text : String)
  | moment (error : Moment.RangeError)
  /-- A real number in sixtieths of too large a unit. -/
  | overflow
  /-- A text tagged as a moment that is none. -/
  | noMoment
  /-- A map tagged as a moment. -/
  | mapAsMoment
  /-- A text tagged as octets that are not written in letters. -/
  | octetForm
  /-- A text tagged as a truth value that is none. -/
  | truthWord (word : String)
  deriving DecidableEq, Repr

end SlotSafe.Yaml
