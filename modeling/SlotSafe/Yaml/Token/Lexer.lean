import SlotSafe.Text.Utf8
import SlotSafe.Yaml.Token
import SlotSafe.Yaml.Token.Scalar

/-!
# From a YAML text to its tokens

In block context the columns of the text tell where lists and maps start and end. A map may start
with a key that is recognised only later, at the colon after it. So wherever a key could start the
place is remembered, together with the number of tokens before it, and the tokens that start the
map and the key are put in front of it when the colon is met. A key must stand on one line and have
at most 1024 characters; where only a key can stand its colon must follow.
-/

namespace SlotSafe.Yaml

/-- A place where a key may have started. -/
structure PossibleKey where
  /-- The number of tokens before it. -/
  tokensBefore : Nat
  /-- Whether nothing but a key can stand here. -/
  required : Bool
  index : Nat
  line : Nat
  column : Nat

/-- The state of the lexer. -/
structure Lexer where
  cursor : Cursor
  /-- The tokens found, the last one first. -/
  tokens : List Token
  /-- The number of flow lists and maps that are open. -/
  depth : Nat
  /-- The column of the innermost block list or map, or -1. -/
  indent : Int
  /-- The columns of the block lists and maps around it. -/
  outer : List Int
  /-- Whether a key may start here. -/
  keyAllowed : Bool
  /-- The possible key of the innermost flow list or map, or of the block context. -/
  possible : Option PossibleKey
  /-- The possible keys further out. -/
  possibleOutside : List (Option PossibleKey)

namespace Lexer

/-- The state before the first token. -/
def start (s : List Char) : Lexer where
  cursor := .start s
  tokens := []
  depth := 0
  indent := -1
  outer := []
  keyAllowed := true
  possible := none
  possibleOutside := []

/-- Whether a flow list or map is open. -/
def inFlow (l : Lexer) : Bool := l.depth != 0

/-- Adds a token. -/
def emit (l : Lexer) (t : Token) : Lexer := { l with tokens := t :: l.tokens }

/-- Puts a token in front of those after the first `n`. -/
def emitAfter (l : Lexer) (n : Nat) (t : Token) : Lexer :=
  let later := l.tokens.length - n
  { l with tokens := l.tokens.take later ++ t :: l.tokens.drop later }

/-- Passes characters. -/
def advance (l : Lexer) (n : Nat) : Lexer := { l with cursor := l.cursor.advance n }

/-! ## Possible keys -/

/-- Whether a possible key can no longer be one. -/
def isStale (l : Lexer) (k : PossibleKey) : Bool :=
  k.line != l.cursor.line || decide (1024 < l.cursor.index - k.index)

/-- Forgets a possible key that can no longer be one. -/
def freshKey (l : Lexer) : Option PossibleKey → Except ReadError (Option PossibleKey)
  | some k =>
    if l.isStale k then (if k.required then .error .missingColon else .ok none) else .ok (some k)
  | none => .ok none

/-- Forgets the possible keys that can no longer be keys. -/
def forgetStale (l : Lexer) : Except ReadError Lexer := do
  let possible ← l.freshKey l.possible
  let possibleOutside ← l.possibleOutside.mapM l.freshKey
  .ok { l with possible, possibleOutside }

/-- Forgets the possible key of the innermost context. -/
def forgetKey (l : Lexer) : Except ReadError Lexer :=
  match l.possible with
  | some k => if k.required then .error .missingColon else .ok { l with possible := none }
  | none => .ok l

/-- Remembers that a key may start here. -/
def rememberKey (l : Lexer) : Except ReadError Lexer :=
  if l.keyAllowed then do
    let l ← l.forgetKey
    .ok { l with possible := some {
      tokensBefore := l.tokens.length
      required := !l.inFlow && decide (l.indent = (l.cursor.column : Int))
      index := l.cursor.index
      line := l.cursor.line
      column := l.cursor.column } }
  else .ok l

/-! ## Indentation -/

/-- The ends of the block lists and maps that are indented further than a column. -/
def closeBlocks (column : Int) (indent : Int) : List Int → List Token → Int × List Int × List Token
  | [], tokens => if column < indent then (-1, [], .blockEnd :: tokens) else (indent, [], tokens)
  | out :: outer, tokens =>
    if column < indent then closeBlocks column out outer (.blockEnd :: tokens)
    else (indent, out :: outer, tokens)

/-- Ends the block lists and maps that are indented further than a column. -/
def unwind (l : Lexer) (column : Int) : Lexer :=
  if l.inFlow then l
  else
    let (indent, outer, tokens) := closeBlocks column l.indent l.outer l.tokens
    { l with indent, outer, tokens }

/-- Whether a block list or map that starts at a column lies deeper than the innermost one. -/
def opensBlock (l : Lexer) (column : Nat) : Bool := decide (l.indent < (column : Int))

/-- Makes a column the one of the innermost block list or map. -/
def openBlock (l : Lexer) (column : Nat) : Lexer :=
  { l with indent := column, outer := l.indent :: l.outer }

/-! ## Between tokens -/

/-- Blanks, comments and line ends at the front: the number of characters, and whether there is a
line end among them. -/
def gap (inComment : Bool) : List Char → Nat × Bool
  | [] => (0, false)
  | c :: rest =>
    if isBreak c then
      let (n, _) := gap false rest
      (n + 1, true)
    else if inComment || c == '#' then
      let (n, broken) := gap true rest
      (n + 1, broken)
    else if c == ' ' then
      let (n, broken) := gap false rest
      (n + 1, broken)
    else (0, false)

/-- Passes what lies before the next token. After a line end a key may start in block context. -/
def passGap (l : Lexer) : Lexer :=
  let l := if l.cursor.index = 0 ∧ l.cursor.sees '\ufeff' then l.advance 1 else l
  let (n, broken) := gap false l.cursor.rest
  let l := l.advance n
  if broken && !l.inFlow then { l with keyAllowed := true } else l

/-! ## Directives, anchors and tags -/

/-- Characters that may stand in a tag. -/
def isTagChar (c : Char) : Bool := c.isAlphanum || "-;/?:@&=+$,_.!~*'()[]%".toList.contains c

/-- The octets written by percent signs and hexadecimal digits at the front, and the rest. -/
def percentOctets : List Char → Except ReadError (List UInt8 × List Char)
  | '%' :: rest => match rest with
    | a :: b :: rest => match Text.hexNumber? 0 [a, b] with
      | some n => do
        let (octets, rest) ← percentOctets rest
        .ok (UInt8.ofNat n :: octets, rest)
      | none => .error .tagForm
    | _ => .error .tagForm
  | rest => .ok ([], rest)

/-- The characters of a tag at the front, and the rest. A run of octets written by percent signs
must be whole characters. -/
def tagChars : (fuel : Nat) → List Char → Except ReadError (List Char × List Char)
  | 0, s => .ok ([], s)
  | fuel + 1, s => match s with
    | [] => .ok ([], [])
    | c :: rest =>
      if c == '%' then do
        let (octets, rest) ← percentOctets s
        match Text.Utf8.decode octets with
        | .ok chars =>
          let (more, rest) ← tagChars fuel rest
          .ok (chars ++ more, rest)
        | .error _ => .error .tagForm
      else if isTagChar c then do
        let (more, rest) ← tagChars fuel rest
        .ok (c :: more, rest)
      else .ok ([], s)

/-- The part of a tag at the cursor, which may not be empty. -/
def tagText (c : Cursor) : Except ReadError (String × Cursor) := do
  let (chars, rest) ← tagChars (c.rest.length + 1) c.rest
  let n := c.rest.length - rest.length
  if n = 0 then .error .tagForm else .ok (String.ofList chars, c.advance n)

/-- A tag handle at the cursor: an exclamation mark, or a name between two. -/
def tagHandle (c : Cursor) : Except ReadError (String × Cursor) :=
  match c.rest with
  | '!' :: rest =>
    if rest.head? == some ' ' then .ok ("!", c.step)
    else
      let n := runLength isNameChar rest
      if (rest.drop n).head? == some '!' then
        .ok (String.ofList (c.rest.take (n + 2)), c.advance (n + 2))
      else .error .tagForm
  | _ => .error .tagForm

/-- The decimal number at the cursor. -/
def number (c : Cursor) : Except ReadError (Nat × Cursor) :=
  let digits := c.rest.takeWhile Char.isDigit
  if digits.isEmpty then .error .directive
  else if Decimal.digitLimit < digits.length then .error (.integer (.tooLong digits.length))
  else .ok (Nat.ofDigitChars 10 digits 0, c.advance digits.length)

/-- What a directive of a given name says. -/
def directiveBody (name : String) (c : Cursor) : Except ReadError (Directive × Cursor) := do
  if name = "YAML" then
    let (major, c) ← number (c.skip (· == ' '))
    if !c.sees '.' then throw .directive
    let (_, c) ← number c.step
    if !atSpaceOrBreak c.rest then throw .directive
    return (.version major, c)
  else if name = "TAG" then
    let (handle, c) ← tagHandle (c.skip (· == ' '))
    if !c.sees ' ' then throw .directive
    let (stem, c) ← tagText (c.skip (· == ' '))
    if !atSpaceOrBreak c.rest then throw .directive
    return (.handle handle stem, c)
  else return (.other, c.skip fun x => !isBreak x)

/-- A directive, the cursor standing at its percent sign. -/
def directive (c : Cursor) : Except ReadError (Directive × Cursor) := do
  let c := c.step
  let n := runLength isNameChar c.rest
  if n = 0 then throw .directive
  let name := String.ofList (c.rest.take n)
  let c := c.advance n
  if !atSpaceOrBreak c.rest then throw .directive
  let (d, c) ← directiveBody name c
  return (d, ← restOfLine .directive c)

/-- The name of an anchor or an alias, the cursor standing at its sign. -/
def anchorName (c : Cursor) : Except ReadError (String × Cursor) :=
  let c := c.step
  let n := runLength isNameChar c.rest
  let next := c.advance n
  let ends := atSpace next.rest || (next.peek.any fun x => "?:,]\x7d%@\x60".toList.contains x)
  if n = 0 || !ends then .error .anchorName else .ok (String.ofList (c.rest.take n), next)

/-- Whether a tag names a handle: whether it has a second exclamation mark before its end. -/
def hasHandle (afterMark : List Char) : Bool :=
  (afterMark.takeWhile fun x => !(x == ' ' || isBreak x)).contains '!'

/-- A tag, the cursor standing at its exclamation mark. -/
def tag (c : Cursor) : Except ReadError (Token × Cursor) := do
  let (t, c) ← (
    if c.peekAt 1 == some '<' then do
      let (text, c) ← tagText (c.advance 2)
      if !c.sees '>' then throw .tagForm
      return (Token.tag none text, c.step)
    else if atSpace (c.rest.drop 1) then return (Token.tag none "!", c.step)
    else do
      let (handle, c) ← if hasHandle (c.rest.drop 1) then tagHandle c else .ok ("!", c.step)
      let (text, c) ← tagText c
      return (Token.tag (some handle) text, c))
  if !atSpaceOrBreak c.rest then throw .tagForm
  return (t, c)

/-! ## Tokens -/

/-- A token that ends everything open: a directive or a document separator. -/
def closeAll (l : Lexer) : Except ReadError Lexer := do
  let l ← (l.unwind (-1)).forgetKey
  .ok { l with keyAllowed := false }

/-- A document separator. -/
def fetchSeparator (t : Token) (l : Lexer) : Except ReadError Lexer := do
  let l ← l.closeAll
  .ok ((l.advance 3).emit t)

/-- A directive. -/
def fetchDirective (l : Lexer) : Except ReadError Lexer := do
  let l ← l.closeAll
  let (d, cursor) ← directive l.cursor
  .ok ({ l with cursor }.emit (.directive d))

/-- The start of a flow list or map, which may be a key. -/
def openFlow (t : Token) (l : Lexer) : Except ReadError Lexer := do
  let l ← l.rememberKey
  .ok ({ l.advance 1 with
    depth := l.depth + 1
    keyAllowed := true
    possible := none
    possibleOutside := l.possible :: l.possibleOutside }.emit t)

/-- The end of a flow list or map. -/
def closeFlow (t : Token) (l : Lexer) : Except ReadError Lexer := do
  let l ← l.forgetKey
  match l.possibleOutside with
  | [] => .error .unexpectedToken
  | possible :: possibleOutside =>
    .ok ({ l.advance 1 with
      depth := l.depth - 1
      keyAllowed := false
      possible, possibleOutside }.emit t)

/-- The comma between flow entries. -/
def fetchFlowEntry (l : Lexer) : Except ReadError Lexer := do
  let l ← l.forgetKey
  .ok ({ l.advance 1 with keyAllowed := true }.emit .flowEntry)

/-- Starts a block list or map at the current column, if it lies deeper than the one around it. -/
def startBlock (t : Token) (l : Lexer) : Except ReadError Lexer :=
  if l.inFlow then .ok l
  else if !l.keyAllowed then .error .misplaced
  else if l.opensBlock l.cursor.column then .ok ((l.openBlock l.cursor.column).emit t)
  else .ok l

/-- The sign of a block entry. -/
def fetchBlockEntry (l : Lexer) : Except ReadError Lexer := do
  let l ← l.startBlock .blockSequenceStart
  let l ← l.forgetKey
  .ok ({ l.advance 1 with keyAllowed := true }.emit .blockEntry)

/-- The sign of a key. -/
def fetchKey (l : Lexer) : Except ReadError Lexer := do
  let l ← l.startBlock .blockMappingStart
  let l ← l.forgetKey
  .ok ({ l.advance 1 with keyAllowed := !l.inFlow }.emit .key)

/-- Puts the tokens that start a key, and a map if it is the first, in front of a remembered key. -/
def insertKey (l : Lexer) (k : PossibleKey) : Lexer :=
  let l := { l with possible := none, keyAllowed := false }.emitAfter k.tokensBefore .key
  if !l.inFlow && l.opensBlock k.column then
    (l.openBlock k.column).emitAfter k.tokensBefore .blockMappingStart
  else l

/-- The colon before a value. -/
def fetchValue (l : Lexer) : Except ReadError Lexer := do
  let l ← match l.possible with
    | some k => .ok (l.insertKey k)
    | none => do
      let l ← l.startBlock .blockMappingStart
      let l ← l.forgetKey
      .ok { l with keyAllowed := !l.inFlow }
  .ok ((l.advance 1).emit .value)

/-- A token that may be a key and after which none may start: an alias, an anchor, a tag or a quoted
scalar. -/
def fetchNode (scan : Cursor → Except ReadError (Token × Cursor)) (l : Lexer) :
    Except ReadError Lexer := do
  let l ← l.rememberKey
  let (t, cursor) ← scan l.cursor
  .ok ({ l with cursor, keyAllowed := false }.emit t)

/-- A quoted scalar. -/
def fetchQuoted (double : Bool) : Lexer → Except ReadError Lexer :=
  fetchNode fun c => do
    let (chars, c) ← quotedScalar double c
    .ok (.scalar (String.ofList chars) false, c)

/-- A block scalar, after which a key may start. -/
def fetchBlockScalar (folded : Bool) (l : Lexer) : Except ReadError Lexer := do
  let l ← l.forgetKey
  let (chars, cursor) ← blockScalar folded l.indent l.cursor
  .ok ({ l with cursor, keyAllowed := true }.emit (.scalar (String.ofList chars) false))

/-- A plain scalar, after which a key may start if a line end follows. -/
def fetchPlain (l : Lexer) : Except ReadError Lexer := do
  let l ← l.rememberKey
  let (chars, cursor, broken) := plainScalar l.inFlow (l.indent + 1) l.cursor
  .ok ({ l with cursor, keyAllowed := broken }.emit (.scalar (String.ofList chars) true))

/-- Characters that start no plain scalar. -/
def isIndicator (c : Char) : Bool := "-?:,[]\x7b\x7d#&*!|>'\"%@\x60".toList.contains c

/-- Whether a plain scalar starts here. -/
def startsPlain (l : Lexer) (c : Char) (rest : List Char) : Bool :=
  !(isSpace c || isIndicator c)
    || (!atSpace rest && (c == '-' || (!l.inFlow && (c == '?' || c == ':'))))

/-- Reads the token that starts with the next character. -/
def fetch (l : Lexer) (c : Char) (rest : List Char) : Except ReadError Lexer :=
  if c == '%' && l.cursor.column == 0 then l.fetchDirective
  else if l.cursor.column == 0 && atMark '-' (c :: rest) then l.fetchSeparator .documentStart
  else if l.cursor.column == 0 && atMark '.' (c :: rest) then l.fetchSeparator .documentEnd
  else if c == '[' then l.openFlow .flowSequenceStart
  else if c == '\x7b' then l.openFlow .flowMappingStart
  else if c == ']' then l.closeFlow .flowSequenceEnd
  else if c == '\x7d' then l.closeFlow .flowMappingEnd
  else if c == ',' then l.fetchFlowEntry
  else if c == '-' && atSpace rest then l.fetchBlockEntry
  else if c == '?' && (l.inFlow || atSpace rest) then l.fetchKey
  else if c == ':' && (l.inFlow || atSpace rest) then l.fetchValue
  else if c == '*' then l.fetchNode fun c => do
    let (name, c) ← anchorName c
    .ok (.alias name, c)
  else if c == '&' then l.fetchNode fun c => do
    let (name, c) ← anchorName c
    .ok (.anchor name, c)
  else if c == '!' then l.fetchNode tag
  else if c == '|' && !l.inFlow then l.fetchBlockScalar false
  else if c == '>' && !l.inFlow then l.fetchBlockScalar true
  else if c == '\'' then l.fetchQuoted false
  else if c == '"' then l.fetchQuoted true
  else if l.startsPlain c rest then l.fetchPlain
  else .error .strayCharacter

/-- Ends the text. -/
def finish (l : Lexer) : Except ReadError Lexer := (l.unwind (-1)).forgetKey

/-- What lies before the next token is passed, and what cannot be a key any more is forgotten. -/
def settle (l : Lexer) : Except ReadError Lexer := do
  let l ← l.passGap.forgetStale
  .ok (l.unwind l.cursor.column)

/-- One step: the next token is read, or the text is ended. -/
def step (l : Lexer) : Except ReadError (Lexer × Bool) := do
  match l.cursor.rest with
  | [] => .ok (← l.finish, true)
  | c :: rest => .ok (← l.fetch c rest, false)

/-- The number of tokens that are sure to stay where they are: no key can be put in front of one of
them any more. -/
def settledCount (l : Lexer) : Nat :=
  (l.possible.toList ++ l.possibleOutside.filterMap id).foldl
    (fun n k => min n k.tokensBefore) l.tokens.length

/-- The tokens that are sure to stay, and a reason to stop. -/
def stopWith (l : Lexer) (reason : ReadError) : List Token :=
  l.tokens.reverse.take l.settledCount ++ [.failure reason]

/-- Whether the text that is there is too short to tell what stands next. At the start of a line
three characters are needed, which could separate documents. -/
def lacksText (l : Lexer) : Bool :=
  l.cursor.rest.isEmpty || (l.cursor.column == 0 && l.cursor.rest.length < 3)

/-- One step in a text that goes on, `cut` telling why the rest of it cannot be read. A token that
runs to the end of what is there might go on, and is not known. -/
def stepIn (l : Lexer) (cut : ReadError) : Except ReadError (Lexer × Bool) :=
  if l.lacksText then .error cut
  else match l.step with
    | .ok (next, _) => if next.cursor.rest.isEmpty then .error cut else .ok (next, false)
    | .error .openQuote => .error cut
    | .error e => .error e

/-- Reads tokens to the end of the text, or to the place where it is cut. Each token takes a
character at least, so `fuel` is enough when it exceeds their number. Which tokens stay is told by
the keys that were possible before what lies in front of the next token. -/
def run (cut : Option ReadError) : (fuel : Nat) → Lexer → List Token
  | 0, l => l.stopWith .strayCharacter
  | fuel + 1, l =>
    match l.forgetStale with
    | .error e => l.stopWith e
    | .ok fresh =>
      let found := do
        let settled ← fresh.settle
        match cut with
        | some cut => settled.stepIn cut
        | none => settled.step
      match found with
      | .error e => fresh.stopWith e
      | .ok (next, true) => next.tokens.reverse
      | .ok (next, false) => run cut fuel next

end Lexer

/-- The tokens of a text, in order. A text that is not read to its end is given up to the place
where it is cut, with the reason. -/
def tokens (s : List Char) (cut : Option ReadError) : List Token :=
  Lexer.run cut (s.length + 1) (.start s)

end SlotSafe.Yaml
