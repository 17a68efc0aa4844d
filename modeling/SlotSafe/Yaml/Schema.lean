import SlotSafe.Decimal.Real
import SlotSafe.Document
import SlotSafe.Text.Base64
import SlotSafe.Text.LetterCase
import SlotSafe.Text.Parts
import SlotSafe.Yaml.ReadError

/-!
# What plain scalars stand for

A scalar without quotes and without a tag is a text unless it has the form of something else: null,
a truth value, an integer, a real number, a day with or without a time, or one of two signs with a
meaning as keys. Its kind is decided by its form alone. A single line end after the form does not
count.

A tag can force any kind on a scalar, so reading a scalar of a kind can fail. Other kinds than those
above are given by tags alone: octets, written in letters, sets, and two sorts of lists of entries.
-/

namespace SlotSafe.Yaml

/-- The kinds of nodes. -/
inductive Kind where
  | null
  | bool
  | int
  | float
  | moment
  | text
  | octets
  | list
  | map
  | set
  /-- A list of entries, in order. -/
  | entries
  /-- A list of entries of which several may have one key. -/
  | pairs
  /-- The key under which a map takes over entries of other maps. -/
  | merge
  /-- The key of the value that stands for a whole map. -/
  | value
  /-- Signs that are kept for the language itself. -/
  | reserved
  deriving DecidableEq, Repr

namespace Kind

/-- What the tags of kinds begin with. -/
def stem : String := "tag:yaml.org,2002:"

/-- The rest of the tag of a kind. -/
def name : Kind → String
  | null => "null"
  | bool => "bool"
  | int => "int"
  | float => "float"
  | moment => "timestamp"
  | text => "str"
  | octets => "binary"
  | list => "seq"
  | map => "map"
  | set => "set"
  | entries => "omap"
  | pairs => "pairs"
  | merge => "merge"
  | value => "value"
  | reserved => "yaml"

/-- All kinds. -/
def all : List Kind :=
  [null, bool, int, float, moment, text, octets, list, map, set, entries, pairs, merge, value,
    reserved]

/-- The kind that a tag names, if it names one. -/
def ofTag? (tag : String) : Option Kind := all.find? fun kind => stem ++ kind.name == tag

end Kind

/-! ## Words -/

/-- The ways to write null. -/
def nullWords : List String := ["", "~", "null", "Null", "NULL"]

/-- The words for truth values in small letters. -/
def truthWords : List (String × Bool) :=
  [("yes", true), ("no", false), ("true", true), ("false", false), ("on", true), ("off", false)]

/-- A word with a capital at its start. -/
def capitalized (word : String) : String :=
  match word.toList with
  | [] => word
  | c :: rest => String.ofList (c.toUpper :: rest)

/-- A word in small letters, with a capital at its start, and in capitals. -/
def spellings (word : String) : List String :=
  [word, capitalized word, String.ofList (word.toList.map Char.toUpper)]

/-- Whether a text is a word in one of its spellings. -/
def isSpelling (words : List String) (s : List Char) : Bool :=
  (words.flatMap spellings).contains (String.ofList s)

/-! ## Integers -/

/-- Whether a character is a decimal digit or an underscore. -/
def isDigitOrMark (c : Char) : Bool := c.isDigit || c == '_'

/-- Whether a character is one of the digits given, or an underscore. -/
def isAmong (digits : String) (c : Char) : Bool := digits.toList.contains c || c == '_'

/-- A text without a sign in front. -/
def unsigned (s : List Char) : List Char := (Decimal.signAt s).2

/-- Whether a text has digits and underscores only, a digit first. -/
def isDigitRun (s : List Char) : Bool :=
  match s with
  | [] => false
  | c :: rest => c.isDigit && rest.all isDigitOrMark

/-- Whether a text is a number below sixty, of one or two digits. -/
def isSixtieth (s : List Char) : Bool :=
  match s with
  | [b] => b.isDigit
  | [a, b] => "012345".toList.contains a && b.isDigit
  | _ => false

/-- Whether a text without sign is an integer: binary, octal or hexadecimal after a zero, otherwise
decimal, possibly followed by sixtieths after colons. -/
def isUnsignedInt (s : List Char) : Bool :=
  match s with
  | [] => false
  | '0' :: 'b' :: rest => !rest.isEmpty && rest.all (isAmong "01")
  | '0' :: 'x' :: rest => !rest.isEmpty && rest.all (isAmong "0123456789abcdefABCDEF")
  | '0' :: rest => rest.all (isAmong "01234567")
  | _ => match Text.parts ':' s with
    | whole :: sixtieths => isDigitRun whole && sixtieths.all isSixtieth
    | [] => false

/-! ## Real numbers -/

/-- Whether a text is an exponent with a sign. -/
def isExponent (s : List Char) : Bool :=
  match s with
  | e :: sign :: digits =>
    (e == 'e' || e == 'E') && (sign == '-' || sign == '+') && !digits.isEmpty
      && digits.all Char.isDigit
  | _ => false

/-- Whether a text is what may follow the point of a decimal number. -/
def isFraction (s : List Char) : Bool :=
  let rest := s.dropWhile isDigitOrMark
  rest.isEmpty || isExponent rest

/-- Whether a text has the form of a real number: a decimal number with a point, sixtieths with a
point after them, infinity, or no number. -/
def isFloat (s : List Char) : Bool :=
  let body := unsigned s
  let signed := body.length != s.length
  match body.span (· != '.') with
  | ([], '.' :: fraction) =>
    isSpelling ["inf"] fraction
      || (!signed && (["nan", "NaN", "NAN"].contains (String.ofList fraction)
        || (fraction.head?.any Char.isDigit && isFraction fraction)))
  | (whole, '.' :: fraction) => match Text.parts ':' whole with
    | [digits] => isDigitRun digits && isFraction fraction
    | digits :: sixtieths =>
      isDigitRun digits && sixtieths.all isSixtieth && fraction.all isDigitOrMark
    | [] => false
  | _ => false

/-! ## Moments -/

/-- A number of `least` to `most` decimal digits at the front, and the rest. -/
def shortNumber (least most : Nat) (s : List Char) : Option (Nat × List Char) :=
  let digits := (s.take most).takeWhile Char.isDigit
  if digits.length < least then none
  else some (Nat.ofDigitChars 10 digits 0, s.drop digits.length)

/-- A number after a given sign. -/
def numberAfter (sign : Char) (least most : Nat) : List Char → Option (Nat × List Char)
  | c :: rest => if c = sign then shortNumber least most rest else none
  | [] => none

/-- Whether a character is a blank or a tab. -/
def isBlankOrTab (c : Char) : Bool := c == ' ' || c == '\t'

/-- The day at the front, and the rest. -/
def dayAt (s : List Char) : Option (Moment × List Char) := do
  let (year, s) ← shortNumber 4 4 s
  let (month, s) ← numberAfter '-' 1 2 s
  let (day, s) ← numberAfter '-' 1 2 s
  some (⟨year, month, day, none⟩, s)

/-- The digits after the point of the seconds, as microseconds: those beyond the sixth are
dropped. -/
def microseconds (digits : List Char) : Nat :=
  let kept := digits.take 6
  Nat.ofDigitChars 10 kept 0 * Nat.pow 10 (6 - kept.length)

/-- The distance from universal time that is all that is left, where it is given. -/
def offsetIn? (s : List Char) : Option (Option Int) :=
  match s with
  | [] => some none
  | _ => match s.dropWhile isBlankOrTab with
    | ['Z'] => some (some 0)
    | sign :: rest =>
      if sign = '-' ∨ sign = '+' then do
        let (hours, rest) ← shortNumber 1 2 rest
        let (minutes, rest) ← if rest.isEmpty then some (0, rest) else numberAfter ':' 2 2 rest
        let distance : Int := hours * 60 + minutes
        if rest.isEmpty then some (some (if sign = '-' then -distance else distance)) else none
      else none
    | [] => none

/-- The time of day that is all that is left. -/
def clockIn? (s : List Char) : Option Clock := do
  let (hour, s) ← shortNumber 1 2 s
  let (minute, s) ← numberAfter ':' 2 2 s
  let (second, s) ← numberAfter ':' 2 2 s
  let (digits, s) := match s with
    | '.' :: rest => rest.span Char.isDigit
    | _ => ([], s)
  let offset ← offsetIn? s
  some ⟨hour, minute, second, microseconds digits, offset⟩

/-- The moment that a text writes, its parts not yet checked. -/
def momentOf? (s : List Char) : Option Moment := do
  let (day, rest) ← dayAt s
  match rest with
  | [] => some day
  | c :: after =>
    let clock ← if c = 'T' ∨ c = 't' then clockIn? after
      else if isBlankOrTab c then clockIn? (after.dropWhile isBlankOrTab)
      else none
    some { day with clock }

/-- Whether a text has the form of a moment. A day without a time has two digits for the month and
for the day of the month. -/
def isMoment (s : List Char) : Bool :=
  match momentOf? s with
  | some m => m.clock.isSome || s.length == 10
  | none => false

/-! ## The kind of a scalar -/

/-- A text without a line end after it. -/
def withoutLineEnd (s : List Char) : List Char :=
  if 1 < s.length ∧ s.getLast? = some '\n' then s.dropLast else s

/-- The kind of a plain scalar. -/
def Kind.ofScalar (text : List Char) : Kind :=
  let s := withoutLineEnd text
  if nullWords.contains (String.ofList s) then .null
  else if isSpelling (truthWords.map (·.1)) s then .bool
  else if isUnsignedInt (unsigned s) then .int
  else if isFloat s then .float
  else if isMoment s then .moment
  else if s = ['<', '<'] then .merge
  else if s = ['='] then .value
  else if s = ['!'] ∨ s = ['&'] ∨ s = ['*'] then .reserved
  else .text

/-! ## Reading scalars -/

/-- The value of parts that count sixtieths. -/
def sexagesimal (parts : List Int) : Int := parts.foldl (fun value part => value * 60 + part) 0

/-- Reads the parts of a number between colons. -/
def readIntParts : List (List Char) → Except ReadError (List Int)
  | [] => .ok []
  | part :: rest => match Decimal.readInteger part with
    | .error e => .error (.integer e)
    | .ok n => do .ok (n :: (← readIntParts rest))

/-- Reads an integer without its sign. -/
def readUnsignedInt (s : List Char) : Except ReadError Int :=
  let inBase (base : Nat) (digits : List Char) : Except ReadError Int :=
    match Decimal.readIntegerIn base digits with
    | .ok n => .ok n
    | .error e => .error (.integer e)
  match s with
  | [] => .error .noDigits
  | ['0'] => .ok 0
  | '0' :: 'b' :: digits => inBase 2 digits
  | '0' :: 'x' :: digits => inBase 16 digits
  | '0' :: _ => inBase 8 s
  | _ =>
    if s.contains ':' then do .ok (sexagesimal (← readIntParts (Text.parts ':' s)))
    else inBase 10 s

/-- A text without underscores. -/
def withoutMarks (s : List Char) : List Char := s.filter (· != '_')

/-- Reads an integer. -/
def readInt (text : List Char) : Except ReadError Int := do
  let (negative, body) := Decimal.signAt (withoutMarks text)
  let n ← readUnsignedInt body
  .ok (if negative then -n else n)

/-- The sum of parts that count sixtieths, the last part first and `unit` being its unit. A unit
that is beyond all finite numbers cannot be counted in. -/
def sexagesimalReal (unit : Nat) (sum : Binary64) : List Binary64 → Except ReadError Binary64
  | [] => .ok sum
  | part :: rest =>
    let x := Binary64.ofInt unit
    if x = .infinity false then .error .overflow
    else sexagesimalReal (unit * 60) (sum.add (part.mul x)) rest

/-- Reads a part of a real number. -/
def readRealPart (part : List Char) : Except ReadError Binary64 :=
  match Decimal.readReal? part with
  | some x => .ok x
  | none => .error (.number (String.ofList part))

/-- Reads the parts of a real number between colons. -/
def readRealParts : List (List Char) → Except ReadError (List Binary64)
  | [] => .ok []
  | part :: rest => do
    let x ← readRealPart part
    .ok (x :: (← readRealParts rest))

/-- Reads a real number without its sign, in small letters. -/
def readUnsignedReal (s : List Char) : Except ReadError Binary64 :=
  if s = ".inf".toList then .ok (.infinity false)
  else if s.contains ':' then do
    let parts ← readRealParts (Text.parts ':' s)
    sexagesimalReal 1 (.ofInt 0) parts.reverse
  else readRealPart s

/-- The value of the word for what is no number, which is one and the same in all readings. -/
def notANumber : Document := .nan ⟨0, 1⟩

/-- Reads a real number, `id` being the identity of a value that is no number for another reason
than the word for it. -/
def readFloat (id : Identity) (text : List Char) : Except ReadError Document := do
  let s := (Text.lower (String.ofList (withoutMarks text))).toList
  if s.isEmpty then throw .noDigits
  let (negative, body) := Decimal.signAt s
  if body = ".nan".toList then return notANumber
  let x ← readUnsignedReal body
  return .ofReal id (if negative then x.neg else x)

/-- Reads a moment. -/
def readMoment (text : List Char) : Except ReadError Moment :=
  match momentOf? (withoutLineEnd text) with
  | none => .error .noMoment
  | some m => match m.check with
    | .ok m => .ok m
    | .error e => .error (.moment e)

/-- Reads a truth value. -/
def readBool (text : List Char) : Except ReadError Bool :=
  let word := Text.lower (String.ofList text)
  match truthWords.lookup word with
  | some b => .ok b
  | none => .error (.truthWord word)

/-- Reads octets. -/
def readOctets (text : List Char) : Except ReadError (List UInt8) :=
  if text.all fun c => c.toNat < 0x80 then
    match Text.Base64.decode? text with
    | some bytes => .ok bytes
    | none => .error .octetForm
  else .error .octetForm

/-- Reads a scalar of a kind, under an identity of its own. -/
def Kind.readScalar (kind : Kind) (id : Identity) (text : String) : Except ReadError Document :=
  match kind with
  | null => .ok .null
  | bool => (readBool text.toList).map .bool
  | int => (readInt text.toList).map .int
  | float => readFloat id text.toList
  | moment => (readMoment text.toList).map (Document.moment id)
  | Kind.text => .ok (.text text)
  | octets => (readOctets text.toList).map .octets
  | _ => .error .unsuitableTag

end SlotSafe.Yaml
