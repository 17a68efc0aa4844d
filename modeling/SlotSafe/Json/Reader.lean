import SlotSafe.Decimal.Integer
import SlotSafe.Json.Text
import SlotSafe.NestingLimits
import SlotSafe.Table
import SlotSafe.Writing

/-!
# Reading JSON

A reading function takes the characters that are left and returns what it read with the characters
that are then left. Where it fails it says how many characters were left at the place it complains
about, so that the place is known once the length of the whole text is.

Besides the values of the standard, `NaN`, `Infinity` and `-Infinity` are read. Of entries with
equal keys the last value counts, in the place of the first. A number with a fraction or an
exponent is a binary64 number, any other an integer.

Texts are made of characters. An escaped surrogate without its partner is none, and texts that hold one
are told apart in one place only, as the content of a source (`readContent?`), which is where it is
asked for the octets of a text. In all other places the replacement character is read for it. That
leaves out what becomes of such texts when they are shown and written.

A list or map has as its own number the number of characters that are left where it begins. The
value that is no number is one and the same in all readings.
-/

namespace SlotSafe.Json

open SlotSafe.Text

/-- What was expected and not found. -/
inductive Complaint where
  | value
  | propertyName
  | colon
  | comma
  | extraData
  | unterminatedText
  | controlCharacter
  | escape
  | unicodeEscape
  | byteOrderMark
  deriving DecidableEq, Repr

/-- The complaint in words. -/
def Complaint.text : Complaint → String
  | .value => "Expecting value"
  | .propertyName => "Expecting property name enclosed in double quotes"
  | .colon => "Expecting ':' delimiter"
  | .comma => "Expecting ',' delimiter"
  | .extraData => "Extra data"
  | .unterminatedText => "Unterminated string starting at"
  | .controlCharacter => "Invalid control character at"
  | .escape => "Invalid \\escape"
  | .unicodeEscape => "Invalid \\uXXXX escape"
  | .byteOrderMark => "Unexpected UTF-8 BOM (decode using utf-8-sig)"

/-- A place in a text: line and column, counted from one, and the characters before it. -/
structure Place where
  line : Nat
  column : Nat
  offset : Nat
  deriving DecidableEq, Repr

/-- Why a text is not read. -/
inductive ReadError where
  | malformed (complaint : Complaint) (place : Place)
  | integer (error : Decimal.IntegerError)
  /-- A list, or a map, that lies too deep inside others. -/
  | tooDeep (isMap : Bool)
  deriving DecidableEq, Repr

/-- The error in words. -/
def ReadError.message : ReadError → String
  | .malformed complaint place =>
    complaint.text ++ ": line " ++ toString place.line ++ " column " ++ toString place.column
      ++ " (char " ++ toString place.offset ++ ")"
  | .integer error => error.message
  | .tooDeep isMap =>
    "maximum recursion depth exceeded while decoding a JSON " ++ (if isMap then "object" else "array")
      ++ " from a unicode string"

/-- The place after the given characters. -/
def Place.after (before : List Char) : Place where
  line := before.count '\n' + 1
  column := (before.reverse.takeWhile (· != '\n')).length + 1
  offset := before.length

/-- Why a reading function fails: a complaint and the number of characters left at its place, a
number that is not read, or a list or map that lies too deep. -/
inductive Stop where
  | wrong (complaint : Complaint) (left : Nat)
  | integer (error : Decimal.IntegerError)
  | tooDeep (isMap : Bool)

/-- The characters that may stand between the parts of a text. -/
def isBlankChar (c : Char) : Bool := c == ' ' || c == '\t' || c == '\n' || c == '\r'

/-- Passes over blanks. -/
def skipBlank (s : List Char) : List Char := s.dropWhile isBlankChar

/-- The character that a short escape names. -/
def shortEscape? (c : Char) : Option Char :=
  match c with
  | '"' => some '"'
  | '\\' => some '\\'
  | '/' => some '/'
  | 'b' => some '\x08'
  | 'f' => some '\x0c'
  | 'n' => some '\n'
  | 'r' => some '\r'
  | 't' => some '\t'
  | _ => none

/-- Reads the inside of a text and its closing quote. `start` is the number of characters left at
the opening quote, `acc` the points read, the last one first. -/
def readPoints (start : Nat) (acc : List Point) : List Char → Except Stop (List Point × List Char)
  | [] => .error (.wrong .unterminatedText start)
  | '"' :: rest => .ok (acc.reverse, rest)
  | '\\' :: rest => match rest with
    | [] => .error (.wrong .unterminatedText start)
    | 'u' :: rest =>
      let fail : Except Stop (List Point × List Char) :=
        .error (.wrong .unicodeEscape (rest.length + 1))
      match rest with
      | a :: b :: c :: d :: rest =>
        match hexNumber? 0 [a, b, c, d] with
        | none => fail
        | some unit =>
          match rest with
          | [] => fail
          | '\\' :: 'u' :: e :: f :: g :: h :: next :: after =>
            if isHighUnit unit then
              match hexNumber? 0 [e, f, g, h] with
              | none => .error (.wrong .unicodeEscape (after.length + 6))
              | some second =>
                if isLowUnit second then
                  readPoints start (.char (charOfPair unit second) :: acc) (next :: after)
                else readPoints start (.ofUnit unit :: acc)
                  ('\\' :: 'u' :: e :: f :: g :: h :: next :: after)
            else readPoints start (.ofUnit unit :: acc)
              ('\\' :: 'u' :: e :: f :: g :: h :: next :: after)
          | next :: after => readPoints start (.ofUnit unit :: acc) (next :: after)
      | _ => fail
    | c :: rest => match shortEscape? c with
      | some e => readPoints start (.char e :: acc) rest
      | none => .error (.wrong .escape (rest.length + 2))
  | c :: rest =>
    if c.toNat < 0x20 then .error (.wrong .controlCharacter (rest.length + 1))
    else readPoints start (.char c :: acc) rest

/-- Reads the inside of a text and its closing quote as characters. -/
def readText (start : Nat) (s : List Char) : Except Stop (String × List Char) := do
  let (points, rest) ← readPoints start [] s
  .ok (String.ofList (points.map Point.replaced), rest)

/-- Reads the content of a source, which stands under that name, if it is a text with surrogates in
it. -/
def readContent? (key : String) : List Char → Option (Unpaired × List Char)
  | '"' :: rest =>
    if key = "content" then
      match readPoints (rest.length + 1) [] rest with
      | .ok (points, rest) => match ofPoints points with
        | .inl _ => none
        | .inr content => some (content, rest)
      | .error _ => none
    else none
  | _ => none

/-- The digits at the front, and the rest. -/
def spanDigits (s : List Char) : List Char × List Char := s.span Char.isDigit

/-- The number that digits write. -/
def digitsValue (digits : List Char) : Nat := Nat.ofDigitChars 10 digits 0

/-- The fraction of a number, if one follows. -/
def readFraction (s : List Char) : List Char × List Char :=
  match s with
  | '.' :: rest => match spanDigits rest with
    | ([], _) => ([], s)
    | found => found
  | _ => ([], s)

/-- The exponent of a number, if one follows. -/
def readExponent (s : List Char) : Option Int × List Char :=
  let digitsAfter (negative : Bool) (rest : List Char) : Option Int × List Char :=
    match spanDigits rest with
    | ([], _) => (none, s)
    | (digits, rest) =>
      (some (if negative then -(digitsValue digits : Int) else digitsValue digits), rest)
  match s with
  | c :: rest =>
    if c = 'e' ∨ c = 'E' then
      match rest with
      | '-' :: rest => digitsAfter true rest
      | '+' :: rest => digitsAfter false rest
      | rest => digitsAfter false rest
    else (none, s)
  | [] => (none, s)

/-- The whole part of a number: zero, or digits of which the first is not zero. -/
def readWhole (s : List Char) : Option (List Char × List Char) :=
  match s with
  | '0' :: rest => some (['0'], rest)
  | c :: _ => if c.isDigit then some (spanDigits s) else none
  | [] => none

/-- A number, if one stands at the front. -/
def readNumber (s : List Char) : Option (Except Decimal.IntegerError Document × List Char) :=
  let (negative, body) := match s with
    | '-' :: rest => (true, rest)
    | _ => (false, s)
  match readWhole body with
  | none => none
  | some (whole, rest) =>
    let (fraction, rest) := readFraction rest
    let (exponent, rest) := readExponent rest
    if fraction.isEmpty && exponent.isNone then
      let n : Int := digitsValue whole
      if Decimal.digitLimit < whole.length then some (.error (.tooLong whole.length), rest)
      else some (.ok (.int (if negative then -n else n)), rest)
    else
      some (.ok (.float (Binary64.ofDecimal negative (digitsValue (whole ++ fraction))
        (exponent.getD 0 - fraction.length))), rest)

/-- The value that is no number. -/
def notANumber : Document := .nan ⟨0, 0⟩

variable [NestingLimits]

mutual

/-- Reads a value with `depth` lists and maps around it. -/
def readValue (reading : Nat) : (fuel depth : Nat) → List Char →
    Except Stop (Document × List Char)
  | 0, _, s => .error (.wrong .value s.length)
  | fuel + 1, depth, s => match s with
    | '"' :: rest => do
      let (content, rest) ← readText s.length rest
      .ok (.text content, rest)
    | '[' :: rest =>
      if NestingLimits.reading .json ≤ depth then .error (.tooDeep false)
      else
        let id : Identity := ⟨reading, s.length⟩
        match skipBlank rest with
        | ']' :: rest => .ok (.list id [], rest)
        | rest => do
          let (items, rest) ← readItems reading fuel (depth + 1) rest
          .ok (.list id items, rest)
    | '\x7b' :: rest =>
      if NestingLimits.reading .json ≤ depth then .error (.tooDeep true)
      else
        let id : Identity := ⟨reading, s.length⟩
        match skipBlank rest with
        | '\x7d' :: rest => .ok (.map id [], rest)
        | rest => do
          let (table, rest) ← readEntries reading fuel (depth + 1) .empty rest
          .ok (.map id table.entries, rest)
    | 'n' :: 'u' :: 'l' :: 'l' :: rest => .ok (.null, rest)
    | 't' :: 'r' :: 'u' :: 'e' :: rest => .ok (.bool true, rest)
    | 'f' :: 'a' :: 'l' :: 's' :: 'e' :: rest => .ok (.bool false, rest)
    | 'N' :: 'a' :: 'N' :: rest => .ok (notANumber, rest)
    | 'I' :: 'n' :: 'f' :: 'i' :: 'n' :: 'i' :: 't' :: 'y' :: rest =>
      .ok (.float (.infinity false), rest)
    | '-' :: 'I' :: 'n' :: 'f' :: 'i' :: 'n' :: 'i' :: 't' :: 'y' :: rest =>
      .ok (.float (.infinity true), rest)
    | s => match readNumber s with
      | some (.ok d, rest) => .ok (d, rest)
      | some (.error e, _) => .error (.integer e)
      | none => .error (.wrong .value s.length)

/-- Reads the items of a list up to its end. -/
def readItems (reading : Nat) : (fuel depth : Nat) → List Char →
    Except Stop (List Document × List Char)
  | 0, _, s => .error (.wrong .value s.length)
  | fuel + 1, depth, s => do
    let (item, rest) ← readValue reading fuel depth s
    match skipBlank rest with
    | ']' :: rest => .ok ([item], rest)
    | ',' :: rest => do
      let (items, rest) ← readItems reading fuel depth (skipBlank rest)
      .ok (item :: items, rest)
    | rest => .error (.wrong .comma rest.length)

/-- Reads the entries of a map up to its end, into a table. -/
def readEntries (reading : Nat) : (fuel depth : Nat) → Table Document → List Char →
    Except Stop (Table Document × List Char)
  | 0, _, _, s => .error (.wrong .propertyName s.length)
  | fuel + 1, depth, table, s => match s with
    | '"' :: rest => do
      let (key, rest) ← readText s.length rest
      match skipBlank rest with
      | ':' :: rest => do
        let (value, rest) ← (match readContent? key (skipBlank rest) with
          | some (content, rest) => .ok (.unpaired content, rest)
          | none => readValue reading fuel depth (skipBlank rest))
        let table := table.insert (.text key) value
        match skipBlank rest with
        | '\x7d' :: rest => .ok (table, rest)
        | ',' :: rest => readEntries reading fuel depth table (skipBlank rest)
        | rest => .error (.wrong .comma rest.length)
      | rest => .error (.wrong .colon rest.length)
    | s => .error (.wrong .propertyName s.length)

end

/-- Reads a text that holds one value. -/
def readAll (reading : Nat) (s : List Char) : Except Stop Document :=
  match s with
  | '\ufeff' :: _ => .error (.wrong .byteOrderMark s.length)
  | s => do
    let (value, rest) ← readValue reading (2 * s.length + 2) 0 (skipBlank s)
    match skipBlank rest with
    | [] => .ok value
    | rest => .error (.wrong .extraData rest.length)

/-- The error with its place in the text. -/
def Stop.locate (s : List Char) : Stop → ReadError
  | .wrong complaint left => .malformed complaint (.after (s.take (s.length - left)))
  | .integer error => .integer error
  | .tooDeep isMap => .tooDeep isMap

/-- Reads a text that holds one value; `reading` is the number of this reading. -/
def read (reading : Nat) (s : List Char) : Except ReadError Document :=
  match readAll reading s with
  | .ok value => .ok value
  | .error stop => .error (stop.locate s)

end SlotSafe.Json
