import SlotSafe.Text.Base64
import SlotSafe.Yaml.Cursor
import SlotSafe.Yaml.Outline
import SlotSafe.Yaml.Schema

/-!
# Writing YAML

Lists and maps are written as blocks, an item or an entry to a line, each two blanks deeper than
what holds it; only a list under a key stands at the column of the key. Empty lists and maps are
written between brackets. In front of what is named again stands its anchor, and in front of sets and
octets their tag; a block begins on the line after them. After the colon of a key with a question
mark the items of a list with an anchor stand at the column of the key.

A text is written without quotes where it could not be read as anything else, otherwise between
single quotes, and between double quotes where it holds what only an escape can write. A scalar that
runs past column 80 is continued on further lines; a key never is. A key stands before its colon on
one line unless it is empty, long or of several lines: then it stands after a question mark.

Texts with surrogates in them are contents of sources, which are not meant to be written; here the
replacement character takes the place of a surrogate.
-/

namespace SlotSafe.Yaml

open SlotSafe.Text

/-! ## Choosing quotes -/

/-- Whether a character is printable ASCII. -/
def isPlainChar (c : Char) : Bool := 0x20 ≤ c.toNat && c.toNat ≤ 0x7e

/-- Whether a word ends before the given characters. -/
def endsWord (rest : List Char) : Bool := rest.isEmpty || rest.head? == some ' '

/-- Whether a text may start with a character without being quoted. -/
def startsBare (c : Char) (rest : List Char) : Bool :=
  isPlainChar c && !" #,[]\x7b\x7d&*!|>'\"%@\x60".toList.contains c
    && !((c == '?' || c == ':' || c == '-') && endsWord rest)

/-- Whether a text may go on without being quoted, `afterBlank` telling whether a blank stands
before. No comment and no key may seem to start in it, and no blank may end it. -/
def continuesBare (afterBlank : Bool) : List Char → Bool
  | [] => !afterBlank
  | c :: rest =>
    isPlainChar c && !(c == ':' && endsWord rest) && !(c == '#' && afterBlank)
      && continuesBare (c == ' ') rest

/-- Whether a text begins like a line that separates documents. -/
def atSeparatorMarks (s : List Char) : Bool :=
  s.take 3 == ['-', '-', '-'] || s.take 3 == ['.', '.', '.']

/-- Whether a text may stand without quotes in a block, as far as its characters go. -/
def isBare (s : List Char) : Bool :=
  match s with
  | [] => false
  | c :: rest =>
    startsBare c rest && !atSeparatorMarks s
      && continuesBare false rest

/-- Whether a blank and a line end stand next to each other, in either order. -/
def hasBlankAtBreak : List Char → Bool
  | a :: b :: rest =>
    (a == ' ' && b == '\n') || (a == '\n' && b == ' ') || hasBlankAtBreak (b :: rest)
  | _ => false

/-- Whether a text may stand between single quotes. -/
def isSimplyQuotable (s : List Char) : Bool :=
  s.all (fun c => c == '\n' || isPlainChar c) && !hasBlankAtBreak s

/-- How a text is written. -/
inductive QuoteStyle where
  | bare
  | single
  | double
  deriving DecidableEq, Repr

/-- How a text is written: without quotes only if it is then read as a text. -/
def QuoteStyle.of (s : List Char) : QuoteStyle :=
  if Kind.ofScalar s = .text && isBare s then bare
  else if isSimplyQuotable s then single
  else double

/-! ## Scalars -/

/-- The column past which a line is not continued. -/
def lineWidth : Nat := 80

/-- A line end and the blanks that begin the next line. -/
def newLine (indent : Nat) : List Char := '\n' :: List.replicate indent ' '

/-- A text without quotes or the inside of single quotes, from a column on, `before` being the
character before. Where lines are folded a single blank between two words past the width becomes a
line end. A line end is written as one more, since a single one would be read as a blank. -/
def foldedText (quoted fold : Bool) (indent column : Nat) (before : Option Char) :
    List Char → List Char
  | [] => []
  | c :: rest =>
    if c == ' ' then
      let alone := before.isSome && before != some ' ' && !rest.isEmpty && rest.head? != some ' '
      if fold && alone && lineWidth < column then
        newLine indent ++ foldedText quoted fold indent indent (some c) rest
      else c :: foldedText quoted fold indent (column + 1) (some c) rest
    else if c == '\n' then
      let first := if before == some '\n' then [] else ['\n']
      let next := if rest.head? == some '\n' then ['\n'] else newLine indent
      first ++ next ++ foldedText quoted fold indent indent (some c) rest
    else if quoted && c == '\'' then
      c :: c :: foldedText quoted fold indent (column + 2) (some c) rest
    else c :: foldedText quoted fold indent (column + 1) (some c) rest

/-- The letter of a short escape. -/
def escapeLetter? (c : Char) : Option Char :=
  match c.toNat with
  | 0x00 => some '0'
  | 0x07 => some 'a'
  | 0x08 => some 'b'
  | 0x09 => some 't'
  | 0x0a => some 'n'
  | 0x0b => some 'v'
  | 0x0c => some 'f'
  | 0x0d => some 'r'
  | 0x1b => some 'e'
  | 0x22 => some '"'
  | 0x5c => some '\\'
  | 0x85 => some 'N'
  | 0xa0 => some '_'
  | 0x2028 => some 'L'
  | 0x2029 => some 'P'
  | _ => none

/-- The escape of a character, where it needs one. -/
def escape? (c : Char) : Option (List Char) :=
  match escapeLetter? c with
  | some letter => some ['\\', letter]
  | none =>
    let n := c.toNat
    if isPlainChar c then none
    else if n ≤ 0xff then some ('\\' :: 'x' :: upperHex 2 n)
    else if n ≤ 0xffff then some ('\\' :: 'u' :: upperHex 4 n)
    else some ('\\' :: 'U' :: upperHex 8 n)

/-- A line end inside double quotes, which a backslash keeps from being read, and a backslash before
a blank that begins the next line. -/
def escapedBreak (indent : Nat) (next : Option Char) : List Char :=
  '\\' :: newLine indent ++ if next == some ' ' then ['\\'] else []

/-- The inside of double quotes from a column on. `atStart` tells whether nothing stands before,
and `afterEscape` whether an escape does. Where lines are folded a line may end after an escape or
before a blank, once it is past the width, but not before the last character. -/
def escapedText (fold : Bool) (indent column : Nat) (atStart afterEscape : Bool) :
    List Char → List Char
  | [] => []
  | c :: rest =>
    let mayBreak := fold && !atStart && !rest.isEmpty
    match escape? c with
    | some escape =>
      let column := column + escape.length
      if mayBreak && lineWidth + 1 < column then
        let start := if rest.head? == some ' ' then indent + 1 else indent
        escape ++ escapedBreak indent rest.head? ++ escapedText fold indent start false true rest
      else escape ++ escapedText fold indent column false true rest
    | none =>
      if mayBreak && (c == ' ' || afterEscape) && lineWidth < column then
        let start := if c == ' ' then indent + 2 else indent + 1
        escapedBreak indent (some c) ++ c :: escapedText fold indent start false false rest
      else c :: escapedText fold indent (column + 1) false false rest

/-- A text as it is written from a column on. -/
def writeText (fold : Bool) (indent column : Nat) (s : List Char) : List Char :=
  match QuoteStyle.of s with
  | .bare => foldedText false fold indent column none s
  | .single => '\'' :: foldedText true fold indent (column + 1) none s ++ ['\'']
  | .double => '"' :: escapedText fold indent (column + 1) true false s ++ ['"']

/-- Real numbers are written with a point in any case. -/
def numberStyle : Decimal.NumberStyle :=
  { Decimal.messageStyle with
    pointBeforeExponent := true, notANumber := ".nan", infinite := ".inf" }

/-- The text of a scalar that is no text. -/
def bareScalar : Document → List Char
  | .null => "null".toList
  | .bool b => (if b then "true" else "false").toList
  | .int n => (toString n).toList
  | .float x => Decimal.binary64Chars numberStyle x
  | .nan _ => Decimal.binary64Chars numberStyle .nan
  | .moment _ m => m.text.toList
  | .text s => s.toList
  | .unpaired u => u.replaced
  | _ => []

/-- Octets as lines of letters below a sign for such lines. -/
def writeOctets (indent : Nat) (bytes : List UInt8) : List Char :=
  if bytes.isEmpty then ['"', '"']
  else '|' :: (Text.Base64.lines bytes).flatMap (newLine indent ++ ·)

/-- A scalar as it is written from a column on. -/
def writeScalar (fold : Bool) (indent column : Nat) : Document → List Char
  | .text s => writeText fold indent column s.toList
  | .unpaired u => writeText fold indent column u.replaced
  | .octets bytes => writeOctets indent bytes
  | d => foldedText false fold indent column none (bareScalar d)

/-! ## Anchors and tags -/

/-- The name of an anchor, with at least three digits. -/
def anchorName (n : Nat) : List Char := 'i' :: 'd' :: Decimal.padded 3 n

/-- The tag of octets, a blank before it. -/
def octetsTag : List Char := " !!binary".toList

/-- The tag of a set, a blank before it. -/
def setTag : List Char := " !!set".toList

/-- An anchor, a blank before it. -/
def anchorMark (anchor : Option Nat) : List Char :=
  match anchor with
  | some n => ' ' :: '&' :: anchorName n
  | none => []

/-- A place that names an anchor. -/
def aliasText (n : Nat) : List Char := '*' :: anchorName n

/-- What stands in front of the content, each part with a blank before it. -/
def marks : Outline → List Char
  | .alias _ => []
  | .scalar anchor (.octets _) => anchorMark anchor ++ octetsTag
  | .scalar anchor _ => anchorMark anchor
  | .list anchor _ => anchorMark anchor
  | .map anchor isSet _ => anchorMark anchor ++ if isSet then setTag else []

/-- The marks of what stands at the start of its place, with the blank after them instead. -/
def leadingMarks (o : Outline) : List Char :=
  match marks o with
  | [] => []
  | _ :: rest => rest ++ [' ']

/-! ## Keys -/

/-- The length of the short form of a scalar's tag, which counts towards the length of a key. -/
def tagLength : Document → Nat
  | .null => 6
  | .bool _ => 6
  | .int _ => 5
  | .float _ => 7
  | .nan _ => 7
  | .moment _ _ => 11
  | .octets _ => 8
  | _ => 5

/-- The length from which a key stands after a question mark. -/
def keyLimit : Nat := 128

/-- Whether a scalar stands on one line before its colon, `marked` being the length of its anchor's
name. -/
def isSimpleScalar (marked : Nat) (key : Document) : Bool :=
  let chars := bareScalar key
  !chars.isEmpty && !chars.any isBreak && marked + tagLength key + chars.length < keyLimit

/-- Whether a key stands on one line before its colon. -/
def isSimpleKey : Outline → Bool
  | .alias _ => true
  | .scalar anchor d => isSimpleScalar ((anchor.map anchorName).getD []).length d
  | _ => false

/-- A key on one line. -/
def writeKey (indent : Nat) : Outline → List Char
  | .alias n => aliasText n
  | .scalar anchor d => leadingMarks (.scalar anchor d) ++ writeScalar false indent indent d
  | _ => []

/-! ## Blocks -/

/-- An empty list. -/
def emptyList : List Char := ['[', ']']

/-- An empty map. -/
def emptyMap : List Char := ['\x7b', '\x7d']

/-- What begins a block after marks: a line of its own, unless there are none. -/
def blockStart (indent : Nat) (marks : List Char) : List Char :=
  match marks with
  | [] => []
  | _ :: rest => rest ++ newLine indent

mutual

/-- The lines of a list or map that is not empty, the first without its indentation; anything else
as a scalar. The items of a list with an anchor stand at the column `marked`. -/
def writeBlock (indent marked : Nat) : Outline → List Char
  | .alias n => aliasText n
  | .scalar anchor d =>
    let lead := leadingMarks (.scalar anchor d)
    lead ++ writeScalar true indent (indent + lead.length) d
  | .list anchor [] => leadingMarks (.list anchor []) ++ emptyList
  | .list anchor (item :: rest) =>
    let column := if anchor.isSome then marked else indent
    blockStart column (anchorMark anchor)
      ++ '-' :: ' ' :: writeBlock (column + 2) (column + 2) item ++ writeItems column rest
  | .map anchor isSet [] => leadingMarks (.map anchor isSet []) ++ emptyMap
  | .map anchor isSet (entry :: rest) =>
    blockStart indent (marks (.map anchor isSet [])) ++ writeEntry indent entry
      ++ writeEntries indent rest

/-- The items after the first. -/
def writeItems (indent : Nat) : List Outline → List Char
  | [] => []
  | item :: rest =>
    newLine indent ++ '-' :: ' ' :: writeBlock (indent + 2) (indent + 2) item
      ++ writeItems indent rest

/-- The entries after the first. -/
def writeEntries (indent : Nat) : List (Outline × Outline) → List Char
  | [] => []
  | entry :: rest => newLine indent ++ writeEntry indent entry ++ writeEntries indent rest

/-- An entry. -/
def writeEntry (indent : Nat) : Outline × Outline → List Char
  | (key, value) =>
    if isSimpleKey key then
      let chars := writeKey indent key
      chars ++ ':' :: writeUnder indent (indent + chars.length + 1) value
    else
      '?' :: ' ' :: writeBlock (indent + 2) (indent + 2) key
        ++ newLine indent ++ ':' :: ' ' :: writeBlock (indent + 2) indent value

/-- What follows a key and its colon: a block on the next line, or a scalar from a column on. -/
def writeUnder (indent column : Nat) : Outline → List Char
  | .alias n => ' ' :: aliasText n
  | .scalar anchor d =>
    let lead := marks (.scalar anchor d)
    lead ++ ' ' :: writeScalar true (indent + 2) (column + lead.length + 1) d
  | .list anchor [] => anchorMark anchor ++ ' ' :: emptyList
  | .list anchor (item :: rest) =>
    anchorMark anchor ++ newLine indent ++ '-' :: ' ' :: writeBlock (indent + 2) (indent + 2) item
      ++ writeItems indent rest
  | .map anchor isSet [] => marks (.map anchor isSet []) ++ ' ' :: emptyMap
  | .map anchor isSet (entry :: rest) =>
    marks (.map anchor isSet []) ++ newLine (indent + 2) ++ writeEntry (indent + 2) entry
      ++ writeEntries (indent + 2) rest

end

/-- Whether a root is written without quotes, so that its end has to be marked. -/
def endsOpen : Outline → Bool
  | .scalar _ (.text s) => QuoteStyle.of s.toList = .bare
  | .scalar _ (.octets _) => false
  | .scalar _ _ => true
  | _ => false

/-- The text of an outline. -/
def Outline.render (root : Outline) : List Char :=
  let body := match root with
    | .scalar anchor d => leadingMarks (.scalar anchor d) ++ writeScalar true 2 0 d
    | _ => writeBlock 0 0 root
  body ++ (if endsOpen root then "\n...\n" else "\n").toList

variable [NestingLimits]

/-- A document as the text of a file. Nothing is put out if anything in it cannot be written. -/
def render (d : Document) : Writing := .sayIf ((Outline.ofDocument d).map Outline.render)

end SlotSafe.Yaml
