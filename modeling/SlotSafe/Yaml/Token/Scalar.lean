import SlotSafe.Text.Hex
import SlotSafe.Text.Unpaired
import SlotSafe.Yaml.Cursor
import SlotSafe.Yaml.ReadError

/-!
# Scalars of a YAML text

A scalar is plain, quoted, or a block of lines. A line end inside a plain or a quoted scalar is
folded: alone it stands for a blank, and of several in a row the first stands for nothing.
-/

namespace SlotSafe.Yaml

open SlotSafe.Text

/-! ## Plain scalars -/

/-- Whether a plain scalar ends at a colon before the given characters. -/
def endsAtColon (flow : Bool) (after : List Char) : Bool :=
  match after with
  | [] => true
  | c :: _ => isSpace c || (flow && ",[]\x7b\x7d".toList.contains c)

/-- Whether the word of a plain scalar ends before a character, `rest` standing after it. -/
def endsPlainWord (flow : Bool) (c : Char) (rest : List Char) : Bool :=
  isSpace c || (c == ':' && endsAtColon flow rest) || (flow && ",?[]\x7b\x7d".toList.contains c)

/-- The number of characters of the word of a plain scalar at the front. -/
def plainWord (flow : Bool) : List Char → Nat
  | [] => 0
  | c :: rest => if endsPlainWord flow c rest then 0 else plainWord flow rest + 1

/-- The blank lines and indentation at the front: what the line ends stand for, the number of
characters, and whether a document separator follows. -/
def blankLines : List Char → List Char × Nat × Bool
  | [] => ([], 0, false)
  | c :: rest =>
    if c == ' ' then
      let (breaks, n, separator) := blankLines rest
      (breaks, n + 1, separator)
    else if isBreak c then
      if atSeparator rest then ([breakChar c], 1, true)
      else
        let (breaks, n, separator) := blankLines rest
        (breakChar c :: breaks, n + 1, separator)
    else ([], 0, false)

/-- What a line end and the blank lines after it stand for. -/
def foldBreaks (first : Char) (breaks : List Char) : List Char :=
  if first != '\n' then first :: breaks
  else if breaks.isEmpty then [' ']
  else breaks

/-- What lies between two words of a plain scalar: the characters it stands for, where it ends, and
whether it passes a line end. There is none before a document separator. -/
def plainGap (c : Cursor) : List Char × Cursor × Bool :=
  let n := runLength (· == ' ') c.rest
  let blanks := c.rest.take n
  let c := c.advance n
  match c.passBreak with
  | (none, c) => (blanks, c, false)
  | (some first, c) =>
    if atSeparator c.rest then ([], c, true)
    else
      let (breaks, n, separator) := blankLines c.rest
      (if separator then [] else foldBreaks first breaks, c.advance n, true)

/-- The rest of a plain scalar, `acc` being what has been read, the last character first, and `gap`
what lies before the next word. Lines after the first must be indented by `indent` columns. The
last component tells whether the scalar is followed by a line end. -/
def plainFrom (flow : Bool) (indent : Int) : (fuel : Nat) → (acc gap : List Char) → Bool → Cursor →
    List Char × Cursor × Bool
  | 0, acc, _, broken, c => (acc.reverse, c, broken)
  | fuel + 1, acc, gap, broken, c =>
    if c.sees '#' then (acc.reverse, c, broken)
    else
      let n := plainWord flow c.rest
      if n = 0 then (acc.reverse, c, broken)
      else
        let acc := (c.rest.take n).reverse ++ (gap.reverse ++ acc)
        let (gap, next, broken) := plainGap (c.advance n)
        if gap.isEmpty || next.sees '#' || (!flow && decide ((next.column : Int) < indent)) then
          (acc.reverse, next, broken)
        else plainFrom flow indent fuel acc gap broken next

/-- A plain scalar, where it ends, and whether it is followed by a line end. -/
def plainScalar (flow : Bool) (indent : Int) (c : Cursor) : List Char × Cursor × Bool :=
  plainFrom flow indent (c.rest.length + 1) [] [] false c

/-! ## Quoted scalars -/

/-- The blank lines and indentation at the front inside quotes: what the line ends stand for, and
the number of characters. No line may be a document separator. -/
def quotedLines (lineStart : Bool) : List Char → Except ReadError (List Char × Nat)
  | [] => .ok ([], 0)
  | c :: rest =>
    if lineStart && atSeparator (c :: rest) then .error .separatorInQuote
    else if c == ' ' || c == '\t' then do
      let (breaks, n) ← quotedLines false rest
      .ok (breaks, n + 1)
    else if isBreak c then do
      let (breaks, n) ← quotedLines true rest
      .ok (breakChar c :: breaks, n + 1)
    else .ok ([], 0)

/-- The character of a one-letter escape. -/
def letterEscape? (c : Char) : Option Char :=
  match c with
  | '0' => some '\x00'
  | 'a' => some '\x07'
  | 'b' => some '\x08'
  | 't' => some '\t'
  | '\t' => some '\t'
  | 'n' => some '\n'
  | 'v' => some '\x0b'
  | 'f' => some '\x0c'
  | 'r' => some '\r'
  | 'e' => some '\x1b'
  | ' ' => some ' '
  | '"' => some '"'
  | '\\' => some '\\'
  | '/' => some '/'
  | 'N' => some '\u0085'
  | '_' => some '\u00a0'
  | 'L' => some '\u2028'
  | 'P' => some '\u2029'
  | _ => none

/-- The number of digits of a numeric escape. -/
def escapeWidth? (c : Char) : Option Nat :=
  match c with
  | 'x' => some 2
  | 'u' => some 4
  | 'U' => some 8
  | _ => none

/-- The character of a code point, the replacement character taking the place of a surrogate. -/
def codeChar (n : Nat) : Except ReadError Char :=
  if 0x80000000 ≤ n then .error .wideCodePoint
  else if 0x110000 ≤ n then .error .codePoint
  else .ok (Point.ofUnit n).replaced

/-- The number that hexadecimal digits at the front write, if there are as many as wanted. -/
def hexAt? (width : Nat) (s : List Char) : Option Nat :=
  let digits := s.take width
  if digits.length = width then hexNumber? 0 digits else none

/-- The second surrogate of a pair, if it is what stands at the front as an escape. -/
def partnerAt? (c : Cursor) : Option (Nat × Cursor) :=
  match c.rest with
  | '\\' :: x :: rest => do
    let width ← escapeWidth? x
    let n ← hexAt? width rest
    if isLowUnit n then some (n, c.advance (width + 2)) else none
  | _ => none

/-- The character of a numeric escape, `c` standing behind it, and where it ends. Texts with surrogates
in them are left out here, which readers of YAML keep as they are: a pair of surrogates is taken for the
character that has the same escapes in JSON, and any other one for the replacement character. -/
def numericEscape (n : Nat) (c : Cursor) : Except ReadError (List Char × Cursor) :=
  match if isHighUnit n then partnerAt? c else none with
  | some (low, next) => .ok ([charOfPair n low], next)
  | none => (codeChar n).map fun x => ([x], c)

/-- What follows a backslash: the characters it stands for, and where it ends. -/
def escapeAt (c : Cursor) : Except ReadError (List Char × Cursor) :=
  match c.rest with
  | [] => .error .unknownEscape
  | x :: rest =>
    match letterEscape? x with
    | some e => .ok ([e], c.step)
    | none =>
      match escapeWidth? x with
      | some width =>
        match hexAt? width rest with
        | some n => numericEscape n (c.advance (width + 1))
        | none => .error .unknownEscape
      | none =>
        if isBreak x then do
          let (breaks, n) ← quotedLines true rest
          .ok (breaks, c.step.advance n)
        else .error .unknownEscape

/-- What blanks inside quotes stand for, and where they end: themselves, unless a line end follows
them. -/
def quotedGap (c : Cursor) : Except ReadError (List Char × Cursor) :=
  let n := runLength (fun x => x == ' ' || x == '\t') c.rest
  let blanks := c.rest.take n
  let c := c.advance n
  if c.rest.isEmpty then .error .openQuote
  else match c.passBreak with
    | (none, c) => .ok (blanks, c)
    | (some first, c) => do
      let (breaks, n) ← quotedLines true c.rest
      .ok (foldBreaks first breaks, c.advance n)

/-- The rest of a quoted scalar up to its closing quote, `acc` being what has been read, the last
character first. -/
def quotedFrom (double : Bool) : (fuel : Nat) → (acc : List Char) → Cursor →
    Except ReadError (List Char × Cursor)
  | 0, _, _ => .error .openQuote
  | fuel + 1, acc, c =>
    match c.rest with
    | [] => .error .openQuote
    | x :: rest =>
      if isSpace x then do
        let (gap, next) ← quotedGap c
        quotedFrom double fuel (gap.reverse ++ acc) next
      else if double && x == '"' then .ok (acc.reverse, c.step)
      else if double && x == '\\' then do
        let (chars, next) ← escapeAt c.step
        quotedFrom double fuel (chars.reverse ++ acc) next
      else if !double && x == '\'' then
        if rest.head? == some '\'' then quotedFrom double fuel ('\'' :: acc) (c.advance 2)
        else .ok (acc.reverse, c.step)
      else quotedFrom double fuel (x :: acc) c.step

/-- A quoted scalar, the cursor standing at its opening quote. -/
def quotedScalar (double : Bool) (c : Cursor) : Except ReadError (List Char × Cursor) :=
  quotedFrom double (c.rest.length + 1) [] c.step

/-! ## Block scalars -/

/-- What becomes of the line ends after a block scalar. -/
inductive Chomping where
  /-- The last line end is kept, and those of blank lines are not. -/
  | clip
  /-- No line end is kept. -/
  | strip
  /-- All line ends are kept. -/
  | keep
  deriving DecidableEq, Repr

/-- The sign that tells what becomes of line ends. -/
def chomping? (c : Cursor) : Option Chomping :=
  match c.peek with
  | some '+' => some .keep
  | some '-' => some .strip
  | _ => none

/-- The digit that tells the indentation. -/
def indentation? (c : Cursor) : Option Nat :=
  match c.peek with
  | some x => if x.isDigit then some (x.toNat - '0'.toNat) else none
  | none => none

/-- The signs in the first line of a block scalar, in either order. -/
def blockSigns (c : Cursor) : Chomping × Option Nat × Cursor :=
  match chomping? c with
  | some chomping =>
    let c := c.step
    match indentation? c with
    | some n => (chomping, some n, c.step)
    | none => (chomping, none, c)
  | none =>
    match indentation? c with
    | some n =>
      let c := c.step
      match chomping? c with
      | some chomping => (chomping, some n, c.step)
      | none => (.clip, some n, c)
    | none => (.clip, none, c)

/-- Passes blanks, a comment and the line end after them; nothing else may stand there. -/
def restOfLine (error : ReadError) (c : Cursor) : Except ReadError Cursor :=
  let c := c.skip (· == ' ')
  let c := if c.sees '#' then c.skip (fun x => !isBreak x) else c
  if atBreak c.rest then .ok c.passBreak.2 else .error error

/-- The blank lines before the first line of a block scalar that tells its indentation itself: their
line ends, the widest indentation among them, and where they end. -/
def leadingLines : (fuel : Nat) → (widest : Nat) → Cursor → List Char × Nat × Cursor
  | 0, widest, c => ([], widest, c)
  | fuel + 1, widest, c =>
    match c.rest with
    | [] => ([], widest, c)
    | x :: _ =>
      if x == ' ' then leadingLines fuel (max widest c.step.column) c.step
      else if isBreak x then
        let (breaks, widest, next) := leadingLines fuel widest c.step
        (breakChar x :: breaks, widest, next)
      else ([], widest, c)

/-- Passes blanks up to a column. -/
def passIndent (indent : Nat) (c : Cursor) : Cursor :=
  c.advance (min (indent - c.column) (runLength (· == ' ') c.rest))

/-- Blank lines inside a block scalar: their line ends, and where the next line begins, its
indentation passed. -/
def innerLines (indent : Nat) : (fuel : Nat) → Cursor → List Char × Cursor
  | 0, c => ([], c)
  | fuel + 1, c =>
    let c := passIndent indent c
    match c.passBreak with
    | (some x, next) =>
      let (breaks, last) := innerLines indent fuel next
      (x :: breaks, last)
    | (none, c) => ([], c)

/-- The lines of a block scalar from one with text on: the characters they stand for with the line
end of the last one and the line ends of the blank lines after it kept apart, and where they end. -/
def blockLines (folded : Bool) (indent : Nat) : (fuel : Nat) → (acc breaks : List Char) → Cursor →
    List Char × Option Char × List Char × Cursor
  | 0, acc, breaks, c => (acc, none, breaks, c)
  | fuel + 1, acc, breaks, c =>
    let firstBlank := c.sees ' ' || c.sees '\t'
    let n := runLength (fun x => !isBreak x) c.rest
    let acc := (c.rest.take n).reverse ++ (breaks.reverse ++ acc)
    let (lineEnd, next) := (c.advance n).passBreak
    let (breaks, next) := innerLines indent (next.rest.length + 1) next
    if next.column = indent ∧ !next.rest.isEmpty then
      let nextBlank := next.sees ' ' || next.sees '\t'
      let acc :=
        if folded && lineEnd == some '\n' && !firstBlank && !nextBlank then
          (if breaks.isEmpty then ' ' :: acc else acc)
        else lineEnd.toList ++ acc
      blockLines folded indent fuel acc breaks next
    else (acc, lineEnd, breaks, next)

/-- A block scalar, the cursor standing at its sign; `parent` is the indentation of what holds it.
-/
def blockScalar (folded : Bool) (parent : Int) (c : Cursor) :
    Except ReadError (List Char × Cursor) := do
  let (chomping, increment, c) := blockSigns c.step
  if increment = some 0 then throw .blockHeader
  if !atSpaceOrBreak c.rest then throw .blockHeader
  let c ← restOfLine .blockHeader c
  let least := (max (parent + 1) 1).toNat
  let (indent, breaks, c) := match increment with
    | some n =>
      let (breaks, next) := innerLines (least + n - 1) (c.rest.length + 1) c
      (least + n - 1, breaks, next)
    | none =>
      let (breaks, widest, next) := leadingLines (c.rest.length + 1) 0 c
      (max least widest, breaks, next)
  let (acc, lineEnd, breaks, c) :=
    if c.column = indent ∧ !c.rest.isEmpty then
      blockLines folded indent (c.rest.length + 1) [] breaks c
    else ([], none, breaks, c)
  let acc := if chomping = .strip then acc else lineEnd.toList ++ acc
  let acc := if chomping = .keep then breaks.reverse ++ acc else acc
  return (acc.reverse, c)

end SlotSafe.Yaml
