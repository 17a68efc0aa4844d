import SlotSafe.NestingLimits
import SlotSafe.Writing
import SlotSafe.Yaml.Schema
import SlotSafe.Yaml.Token

/-!
# Nodes of a YAML text

A text holds at most one document, whose root is a node: a scalar, a list or a map, each with its
kind. Where a node may stand and nothing stands, it is an empty scalar, which is null.

Nodes are numbered in the order in which they begin, and a list or map holds the numbers of its
parts. An alias is the number of the node of its anchor, so a node can stand in several places, and
a list or map even inside itself.

A reading function takes the tokens that are left with the anchors and nodes known, and gives back
what is then left and known. Every node takes a token, so the number of tokens bounds the depth of
nodes and the length of lists.
-/

namespace SlotSafe.Yaml

/-- What a node holds. Parts are given by their numbers. -/
inductive Content where
  | scalar (text : String)
  | list (items : List Nat)
  | map (entries : List (Nat × Nat))
  deriving DecidableEq, Repr, Inhabited

/-- A node. A kind that is absent is that of a tag without a meaning here. -/
structure Node where
  kind : Option Kind
  content : Content
  deriving DecidableEq, Repr, Inhabited

/-- The node that stands where nothing stands. -/
def Node.absent : Node := ⟨some .null, .scalar ""⟩

/-- Nodes by their numbers. -/
abbrev Nodes := Array Node

namespace Nodes

/-- The node of a number. -/
def node (nodes : Nodes) (n : Nat) : Node := nodes.getD n .absent

/-- Whether a node is of a kind. -/
def hasKind (nodes : Nodes) (kind : Kind) (n : Nat) : Bool := (nodes.node n).kind == some kind

/-- Replaces what a node holds. -/
def fill (nodes : Nodes) (n : Nat) (content : Content) : Nodes :=
  nodes.modify n fun node => { node with content }

end Nodes

/-- What is left to read and what is known: the tokens, the anchors named before with the numbers of
their nodes, the nodes, and the number of lists and maps around the next token. -/
structure Remaining where
  tokens : List Token
  anchors : List (String × Nat)
  nodes : Nodes
  depth : Nat

/-- The beginnings of tags that handles stand for. -/
abbrev Handles := List (String × String)

/-- The handles that are known without a directive. -/
def Handles.default : Handles := [("!", "!"), ("!!", Kind.stem)]

namespace Remaining

/-- Passes the next token. -/
def pass (r : Remaining) : Remaining := { r with tokens := r.tokens.tail }

/-- Passes some of the next tokens. -/
def leave (r : Remaining) (tokens : List Token) : Remaining := { r with tokens }

/-- Why reading fails at the next token. -/
def unexpected (r : Remaining) : ReadError :=
  match r.tokens with
  | .failure reason :: _ => reason
  | _ => .unexpectedToken

/-- Fails where the text stops being well formed at the next token. -/
def mustGoOn (r : Remaining) : Except ReadError Unit :=
  match r.tokens with
  | .failure reason :: _ => .error reason
  | _ => .ok ()

/-- Numbers a node and notes its anchor. -/
def enter (r : Remaining) (anchor : Option String) (node : Node) : Nat × Remaining :=
  let number := r.nodes.size
  (number, { r with
    anchors := (anchor.map fun name => (name, number)).toList ++ r.anchors
    nodes := r.nodes.push node })

/-- Goes into a list or map. -/
def descend (r : Remaining) : Remaining := { r with depth := r.depth + 1 }

/-- Leaves a list or map, whose content is then complete. -/
def complete (r : Remaining) (number : Nat) (content : Content) : Remaining :=
  { r with nodes := r.nodes.fill number content, depth := r.depth - 1 }

/-- The number of the node of an alias. -/
def resolve (r : Remaining) (name : String) : Except ReadError Nat :=
  match r.anchors.lookup name with
  | some number => .ok number
  | none => .error (.undefinedAlias name)

/-- Checks that an anchor has not been named before. -/
def checkAnchor (r : Remaining) (anchor : Option String) : Except ReadError Unit :=
  match anchor with
  | none => .ok ()
  | some name =>
    if r.anchors.any fun entry => entry.1 == name then .error (.repeatedAnchor name) else .ok ()

end Remaining

/-! ## Properties -/

/-- The tag of a node as it is written, its handle replaced. -/
def fullTag (handles : Handles) (handle : Option String) (rest : String) :
    Except ReadError String :=
  match handle with
  | none => .ok rest
  | some h => match handles.lookup h with
    | some stem => .ok (stem ++ rest)
    | none => .error (.undefinedHandle h)

/-- What stands before the content of a node. -/
structure Properties where
  anchor : Option String := none
  tag : Option String := none

/-- The full tag of a node that has no anchor besides, once the token after it is known to be one. -/
def loneTag (handles : Handles) (handle : Option String) (rest : String) (tokens : List Token) :
    Except ReadError String :=
  match tokens with
  | .failure reason :: _ => .error reason
  | _ => fullTag handles handle rest

/-- The properties at the front, and the tokens after them. -/
def Properties.take (handles : Handles) (tokens : List Token) :
    Except ReadError (Properties × List Token) :=
  match tokens with
  | .anchor name :: .tag handle rest :: tokens => do
    .ok (⟨some name, some (← fullTag handles handle rest)⟩, tokens)
  | .tag handle rest :: .anchor name :: tokens => do
    .ok (⟨some name, some (← fullTag handles handle rest)⟩, tokens)
  | .anchor name :: tokens => .ok (⟨some name, none⟩, tokens)
  | .tag handle rest :: tokens => do
    .ok (⟨none, some (← loneTag handles handle rest tokens)⟩, tokens)
  | _ => .ok ({}, tokens)

namespace Properties

/-- Whether there is any property. -/
def given (p : Properties) : Bool := p.anchor.isSome || p.tag.isSome

/-- The kind of a node whose content has a kind of its own, which a tag can replace. The tag of a
single exclamation mark replaces nothing. -/
def kindOr (p : Properties) (own : Kind) : Option Kind :=
  match p.tag with
  | none => some own
  | some tag => if tag = "!" then some own else Kind.ofTag? tag

/-- The kind of a scalar: without quotes its form decides, and so it does under the tag of a single
exclamation mark. -/
def scalarKind (p : Properties) (text : String) (plain : Bool) : Option Kind :=
  if plain || p.tag.isSome then p.kindOr (.ofScalar text.toList) else some .text

end Properties

/-! ## Reading nodes -/

/-- What may stand at a place. -/
inductive Context where
  /-- Only lists and maps between brackets, and scalars. -/
  | flow
  /-- Any node. -/
  | block
  /-- Any node, and a block list that is not indented. -/
  | entry
  deriving DecidableEq, Repr

/-- Whether an item of a block list is empty: another item or the end of the list follows. -/
def emptyItem : List Token → Bool
  | .blockEntry :: _ => true
  | .blockEnd :: _ => true
  | _ => false

/-- Whether a key or value of a block map is empty. -/
def emptyPart : List Token → Bool
  | .key :: _ => true
  | .value :: _ => true
  | .blockEnd :: _ => true
  | _ => false

/-- Whether a key of a flow list or map is empty, `close` being the end of the list or map. -/
def emptyFlowKey (close : Token) : List Token → Bool
  | .value :: _ => true
  | .flowEntry :: _ => true
  | t :: _ => t == close
  | [] => false

/-- Whether a value of a flow list or map is empty. -/
def emptyFlowValue (close : Token) : List Token → Bool
  | .flowEntry :: _ => true
  | t :: _ => t == close
  | [] => false

/-- Enters the node that stands where nothing stands. -/
def readAbsent (r : Remaining) : Nat × Remaining := r.enter none .absent

/-- A node without content, which must have a property. -/
def readEmpty (properties : Properties) (r : Remaining) : Except ReadError (Nat × Remaining) :=
  if properties.given then
    .ok (r.enter properties.anchor ⟨properties.kindOr .null, .scalar ""⟩)
  else .error r.unexpected

/-- Passes the comma before an item or entry that is not the first. -/
def passComma (first : Bool) (r : Remaining) : Except ReadError Remaining :=
  if first then .ok r
  else match r.tokens with
    | .flowEntry :: _ => .ok r.pass
    | _ => .error r.unexpected

/-- Begins a list. -/
def beginList (properties : Properties) (r : Remaining) : Nat × Remaining :=
  let (number, r) := r.enter properties.anchor ⟨properties.kindOr .list, .list []⟩
  (number, r.descend)

/-- Begins a map. -/
def beginMap (properties : Properties) (r : Remaining) : Nat × Remaining :=
  let (number, r) := r.enter properties.anchor ⟨properties.kindOr .map, .map []⟩
  (number, r.descend)

variable [NestingLimits]

mutual

/-- Reads a node. -/
def readNode (handles : Handles) : (fuel : Nat) → Context → Remaining →
    Except ReadError (Nat × Remaining)
  | 0, _, r => .error r.unexpected
  | fuel + 1, context, r =>
    if NestingLimits.reading .yaml ≤ r.depth then .error .tooDeep
    else match r.tokens with
      | .alias name :: _ => do .ok (← r.resolve name, r.pass)
      | _ => do
        let (properties, tokens) ← Properties.take handles r.tokens
        let r := r.leave tokens
        r.mustGoOn
        r.checkAnchor properties.anchor
        readContent handles fuel context properties r

/-- Reads the content of a node after its properties. -/
def readContent (handles : Handles) : (fuel : Nat) → Context → Properties → Remaining →
    Except ReadError (Nat × Remaining)
  | 0, _, _, r => .error r.unexpected
  | fuel + 1, context, properties, r => match r.tokens with
    | .scalar text plain :: _ =>
      .ok (r.pass.enter properties.anchor ⟨properties.scalarKind text plain, .scalar text⟩)
    | .flowSequenceStart :: _ => do
      let (number, r) := beginList properties r.pass
      let (items, r) ← readFlowItems handles fuel true r
      .ok (number, r.complete number (.list items))
    | .flowMappingStart :: _ => do
      let (number, r) := beginMap properties r.pass
      let (entries, r) ← readFlowEntries handles fuel true r
      .ok (number, r.complete number (.map entries))
    | .blockSequenceStart :: _ =>
      if context = .flow then readEmpty properties r
      else do
        let (number, r) := beginList properties r.pass
        let (items, r) ← readItems handles fuel r
        .ok (number, r.complete number (.list items))
    | .blockMappingStart :: _ =>
      if context = .flow then readEmpty properties r
      else do
        let (number, r) := beginMap properties r.pass
        let (entries, r) ← readEntries handles fuel r
        .ok (number, r.complete number (.map entries))
    | .blockEntry :: _ =>
      if context = .entry then do
        let (number, r) := beginList properties r
        let (items, r) ← readFlatItems handles fuel r
        .ok (number, r.complete number (.list items))
      else readEmpty properties r
    | _ => readEmpty properties r

/-- Reads the items of a block list up to its end. -/
def readItems (handles : Handles) : (fuel : Nat) → Remaining →
    Except ReadError (List Nat × Remaining)
  | 0, r => .error r.unexpected
  | fuel + 1, r => match r.tokens with
    | .blockEntry :: rest => do
      let (item, r) ← readUnless handles fuel .block (emptyItem rest) r.pass
      let (items, r) ← readItems handles fuel r
      .ok (item :: items, r)
    | .blockEnd :: _ => .ok ([], r.pass)
    | _ => .error r.unexpected

/-- Reads the items of a block list that is not indented, which ends where no item follows. -/
def readFlatItems (handles : Handles) : (fuel : Nat) → Remaining →
    Except ReadError (List Nat × Remaining)
  | 0, r => .error r.unexpected
  | fuel + 1, r => match r.tokens with
    | .blockEntry :: rest => do
      let (item, r) ← readUnless handles fuel .block (emptyItem rest || emptyPart rest) r.pass
      let (items, r) ← readFlatItems handles fuel r
      .ok (item :: items, r)
    | _ => .ok ([], r)

/-- Reads the entries of a block map up to its end. -/
def readEntries (handles : Handles) : (fuel : Nat) → Remaining →
    Except ReadError (List (Nat × Nat) × Remaining)
  | 0, r => .error r.unexpected
  | fuel + 1, r => match r.tokens with
    | .key :: rest => do
      let (key, r) ← readUnless handles fuel .entry (emptyPart rest) r.pass
      let (value, r) ← readValue handles fuel r
      let (entries, r) ← readEntries handles fuel r
      .ok ((key, value) :: entries, r)
    | .blockEnd :: _ => .ok ([], r.pass)
    | _ => .error r.unexpected

/-- Reads the value of a block map after its key, if there is one. -/
def readValue (handles : Handles) : (fuel : Nat) → Remaining →
    Except ReadError (Nat × Remaining)
  | 0, r => .error r.unexpected
  | fuel + 1, r => match r.tokens with
    | .value :: rest => readUnless handles fuel .entry (emptyPart rest) r.pass
    | _ => .ok (readAbsent r)

/-- Reads the items of a flow list up to its end. A comma stands before every item but the first,
and may stand before the end. -/
def readFlowItems (handles : Handles) : (fuel : Nat) → (first : Bool) → Remaining →
    Except ReadError (List Nat × Remaining)
  | 0, _, r => .error r.unexpected
  | fuel + 1, first, r => match r.tokens with
    | .flowSequenceEnd :: _ => .ok ([], r.pass)
    | _ => do
      let r ← passComma first r
      match r.tokens with
      | .flowSequenceEnd :: _ => .ok ([], r.pass)
      | .key :: rest => do
        let close := Token.flowSequenceEnd
        let (number, r) := beginMap {} r.pass
        let (key, r) ← readUnless handles fuel .flow (emptyFlowKey close rest) r
        let (value, r) ← readFlowValue handles fuel close r
        let r := r.complete number (.map [(key, value)])
        let (items, r) ← readFlowItems handles fuel false r
        .ok (number :: items, r)
      | _ => do
        let (item, r) ← readNode handles fuel .flow r
        let (items, r) ← readFlowItems handles fuel false r
        .ok (item :: items, r)

/-- Reads the entries of a flow map up to its end. A node alone is a key without a value. -/
def readFlowEntries (handles : Handles) : (fuel : Nat) → (first : Bool) → Remaining →
    Except ReadError (List (Nat × Nat) × Remaining)
  | 0, _, r => .error r.unexpected
  | fuel + 1, first, r => match r.tokens with
    | .flowMappingEnd :: _ => .ok ([], r.pass)
    | _ => do
      let r ← passComma first r
      match r.tokens with
      | .flowMappingEnd :: _ => .ok ([], r.pass)
      | .key :: rest => do
        let close := Token.flowMappingEnd
        let (key, r) ← readUnless handles fuel .flow (emptyFlowKey close rest) r.pass
        let (value, r) ← readFlowValue handles fuel close r
        let (entries, r) ← readFlowEntries handles fuel false r
        .ok ((key, value) :: entries, r)
      | _ => do
        let (key, r) ← readNode handles fuel .flow r
        let (value, r) := readAbsent r
        let (entries, r) ← readFlowEntries handles fuel false r
        .ok ((key, value) :: entries, r)

/-- Reads the value of a flow list or map after its key, if there is one. -/
def readFlowValue (handles : Handles) : (fuel : Nat) → (close : Token) → Remaining →
    Except ReadError (Nat × Remaining)
  | 0, _, r => .error r.unexpected
  | fuel + 1, close, r => match r.tokens with
    | .value :: rest => readUnless handles fuel .flow (emptyFlowValue close rest) r.pass
    | _ => .ok (readAbsent r)

/-- Reads a node unless none stands there. -/
def readUnless (handles : Handles) : (fuel : Nat) → Context → (empty : Bool) → Remaining →
    Except ReadError (Nat × Remaining)
  | 0, _, _, r => .error r.unexpected
  | fuel + 1, context, empty, r =>
    if empty then .ok (readAbsent r) else readNode handles fuel context r

end

/-! ## Documents -/

/-- The handles that directives at the front define, and the tokens after them. Only the first
version of the language is read, and nothing may be said twice. -/
def readDirectives (version : Bool) (handles : Handles) : List Token →
    Except ReadError (Handles × List Token)
  | .directive (.version major) :: rest =>
    if version || major != 1 then .error .directive else readDirectives true handles rest
  | .directive (.handle handle stem) :: rest =>
    if handles.any fun entry => entry.1 == handle then .error .directive
    else readDirectives version (handles ++ [(handle, stem)]) rest
  | .directive .other :: rest => readDirectives version handles rest
  | rest => .ok (handles ++ Handles.default, rest)

/-- Passes directives and the sign that starts a document. -/
def readStart (tokens : List Token) : Except ReadError (Handles × List Token) := do
  let (handles, rest) ← readDirectives false [] tokens
  match rest with
  | .documentStart :: rest => .ok (handles, rest)
  | _ => .error (Remaining.unexpected ⟨rest, [], #[], 0⟩)

/-- Whether a document that has been started is empty. -/
def emptyDocument : List Token → Bool
  | [] => true
  | .directive _ :: _ => true
  | .documentStart :: _ => true
  | .documentEnd :: _ => true
  | _ => false

/-- The nodes of a document, and the number of its root. -/
structure Graph where
  nodes : Nodes
  root : Nat

/-- Reads the root of a document. -/
def readRoot (handles : Handles) (tokens : List Token) :
    Except ReadError (Graph × List Token) := do
  let (root, r) ← readNode handles (4 * tokens.length + 4) .block ⟨tokens, [], #[], 0⟩
  .ok (⟨r.nodes, root⟩, r.tokens)

/-- Checks that no further document follows. -/
def checkEnd : List Token → Except ReadError Unit
  | [] => .ok ()
  | .documentEnd :: rest => checkEnd rest
  | rest => do
    let _ ← readStart rest
    .error .severalDocuments

/-- The nodes of the document that tokens describe, if there is one. -/
def Graph.ofTokens? (tokens : List Token) : Except ReadError (Option Graph) :=
  let explicit : Except ReadError (Graph × List Token) := do
    let (handles, rest) ← readStart tokens
    if emptyDocument rest then .ok (⟨#[.absent], 0⟩, rest) else readRoot handles rest
  match tokens with
  | [] => .ok none
  | t :: _ => do
    let (graph, rest) ← match t with
      | .directive _ => explicit
      | .documentStart => explicit
      | _ => readRoot .default tokens
    checkEnd rest
    .ok (some graph)

end SlotSafe.Yaml
