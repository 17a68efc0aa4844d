import SlotSafe.Table
import SlotSafe.Yaml.Merge

/-!
# From nodes to documents

Documents are made of nodes round by round. A node that is met is read at once if it is of a kind
that is written as a scalar. Any other is made without its parts first, and gets them in the next
round, in the order in which such nodes were met. So of several faults the one reported is the one
nearest to the root, and of those equally near the first.

When all parts are known the document is put together from the root. A list or map that is met
inside itself becomes a knot; whatever is no part of something that holds itself is put together
once, however often it stands in the document.
-/

namespace SlotSafe.Yaml

/-- What a node stands for. Parts are given by the numbers of their nodes, keys by themselves. -/
inductive Value where
  | leaf (d : Document)
  | list (items : List Nat)
  | map (entries : List (Document × Nat))
  | pairs (entries : List (Nat × Nat))
  | set (members : List Document)
  deriving Inhabited

/-- What has been made so far: the nodes, what they stand for as far as it is known, and the nodes
whose parts are to come, the one met last first. -/
structure Making where
  nodes : Nodes
  values : Array (Option Value)
  waiting : List Nat

namespace Making

/-- Before the first node has been met. -/
def start (nodes : Nodes) : Making := ⟨nodes, Array.replicate nodes.size none, []⟩

/-- What a node stands for, if it has been met. -/
def value? (m : Making) (n : Nat) : Option Value := (m.values[n]?).join

/-- Notes what a node stands for. -/
def note (m : Making) (n : Nat) (value : Value) : Making :=
  { m with values := m.values.setIfInBounds n (some value) }

/-- Notes a node whose parts are to come. -/
def await (m : Making) (n : Nat) (value : Value) : Making :=
  { m.note n value with waiting := n :: m.waiting }

/-- The text of a scalar. A map gives way to what stands under its value key, and so on; `fuel`
bounds the number of maps that differ. -/
def scalarText (nodes : Nodes) : (fuel n : Nat) → Except ReadError String
  | 0, _ => .error .endless
  | fuel + 1, n => match (nodes.node n).content with
    | .scalar text => .ok text
    | .list _ => .error .unsuitableTag
    | .map entries => match entries.find? fun entry => nodes.hasKind .value entry.1 with
      | some entry => scalarText nodes fuel entry.2
      | none => .error .unsuitableTag

/-- Whether a node holds a text itself. -/
def isScalar (nodes : Nodes) (n : Nat) : Bool :=
  match (nodes.node n).content with
  | .scalar _ => true
  | _ => false

/-- The document of a node that is written as a scalar. -/
def leaf (m : Making) (reading n : Nat) (kind : Kind) : Except ReadError Making := do
  let text ← scalarText m.nodes (m.nodes.size + 1) n
  if kind = .moment && !isScalar m.nodes n then throw .mapAsMoment
  return m.note n (.leaf (← kind.readScalar ⟨reading, n⟩ text))

/-- Meets a node. -/
def meet (reading : Nat) (m : Making) (n : Nat) : Except ReadError Making :=
  if (m.value? n).isSome then .ok m
  else match (m.nodes.node n).kind with
    | none => .error .unknownTag
    | some kind => match kind with
      | .list => .ok (m.await n (.list []))
      | .map => .ok (m.await n (.map []))
      | .set => .ok (m.await n (.set []))
      | .entries => .ok (m.await n (.pairs []))
      | .pairs => .ok (m.await n (.pairs []))
      | _ => m.leaf reading n kind

/-- Meets nodes one after the other. -/
def meetAll (reading : Nat) (m : Making) : List Nat → Except ReadError Making
  | [] => .ok m
  | n :: rest => do (← m.meet reading n).meetAll reading rest

/-- The key that a node stands for, which may not have parts. -/
def key (m : Making) (n : Nat) : Except ReadError Document :=
  match m.value? n with
  | some (.leaf d) => .ok d
  | _ => .error .unkeyable

/-- Meets the keys and values of entries, and enters them into a table. -/
def enterAll (reading : Nat) (m : Making) (table : Table Nat) :
    List (Nat × Nat) → Except ReadError (Table Nat × Making)
  | [] => .ok (table, m)
  | (k, n) :: rest => do
    let m ← m.meet reading k
    let key ← m.key k
    let m ← m.meet reading n
    m.enterAll reading (table.insert key n) rest

/-- The entries of a map, after it has taken over those of other maps. -/
def mapEntries (reading : Nat) (m : Making) (n : Nat) :
    Except ReadError (List (Document × Nat) × Making) :=
  match m.nodes.entries? n with
  | none => .error .unsuitableTag
  | some _ => do
    let nodes ← m.nodes.takeOver n
    let (table, m) ← { m with nodes }.enterAll reading .empty ((nodes.entries? n).getD [])
    .ok (table.entries, m)

/-- Meets the one entry of each of the maps in a list. -/
def listedEntries (reading : Nat) (m : Making) :
    List Nat → Except ReadError (List (Nat × Nat) × Making)
  | [] => .ok ([], m)
  | n :: rest => match m.nodes.entries? n with
    | some [entry] => do
      let m ← m.meetAll reading [entry.1, entry.2]
      let (others, m) ← m.listedEntries reading rest
      .ok (entry :: others, m)
    | _ => .error .entryForm

/-- The nodes in a list. -/
def listItems (m : Making) (n : Nat) : Except ReadError (List Nat) :=
  match (m.nodes.node n).content with
  | .list items => .ok items
  | _ => .error .unsuitableTag

/-- Gives a node its parts. -/
def complete (reading : Nat) (m : Making) (n : Nat) : Except ReadError Making :=
  match m.value? n with
  | some (.list _) => do
    let items ← m.listItems n
    .ok ((← m.meetAll reading items).note n (.list items))
  | some (.map _) => do
    let (entries, m) ← m.mapEntries reading n
    .ok (m.note n (.map entries))
  | some (.set _) => do
    let (entries, m) ← m.mapEntries reading n
    .ok (m.note n (.set (entries.map (·.1))))
  | some (.pairs _) => do
    let (entries, m) ← m.listedEntries reading (← m.listItems n)
    .ok (m.note n (.pairs entries))
  | _ => .ok m

/-- Gives nodes their parts one after the other. -/
def completeAll (reading : Nat) (m : Making) : List Nat → Except ReadError Making
  | [] => .ok m
  | n :: rest => do (← m.complete reading n).completeAll reading rest

/-- Gives nodes their parts round by round, until none is waiting. Each round has a node of its own,
so the number of nodes bounds that of rounds. -/
def rounds (reading : Nat) : (fuel : Nat) → Making → Except ReadError Making
  | 0, m => .ok m
  | fuel + 1, m =>
    if m.waiting.isEmpty then .ok m
    else do rounds reading fuel (← { m with waiting := [] }.completeAll reading m.waiting.reverse)

end Making

/-! ## Putting documents together -/

/-- The documents of nodes that have been put together and hold no loop that leads out of them. -/
abbrev Finished := Array (Option Document)

/-- What is put together: something, the nodes outside to which loops in it lead, and what has been
finished. -/
structure Joined (α : Type) where
  part : α
  outward : List Nat
  finished : Finished

namespace Value

/-- Puts parts together one after the other. -/
def joinAll {α β : Type} (join : α → Finished → Joined β) :
    List α → Finished → Joined (List β)
  | [], finished => ⟨[], [], finished⟩
  | a :: rest, finished =>
    let first := join a finished
    let others := joinAll join rest first.finished
    ⟨first.part :: others.part, first.outward ++ others.outward, others.finished⟩

/-- A list or map of which the parts have been put together. -/
def close (reading n : Nat) (body : Joined Document) : Joined Document :=
  let d := if body.outward.contains n then .knot ⟨reading, n⟩ body.part else body.part
  let outward := body.outward.filter (· != n)
  let finished :=
    if outward.isEmpty then body.finished.setIfInBounds n (some d) else body.finished
  ⟨d, outward, finished⟩

/-- Puts the document of a node together, inside the lists and maps of given nodes; `fuel` bounds
their number. -/
def join (reading : Nat) (values : Array (Option Value)) : (fuel : Nat) → (around : List Nat) →
    (n : Nat) → Finished → Joined Document
  | 0, _, _, finished => ⟨.null, [], finished⟩
  | fuel + 1, around, n, finished =>
    let id : Identity := ⟨reading, n⟩
    let inner (k : Nat) (finished : Finished) : Joined Document :=
      join reading values fuel (n :: around) k finished
    if around.contains n then ⟨.loop id, [n], finished⟩
    else match finished[n]? with
      | some (some d) => ⟨d, [], finished⟩
      | _ => match (values[n]?).join with
        | none => ⟨.null, [], finished⟩
        | some (.leaf d) => ⟨d, [], finished⟩
        | some (.set members) => ⟨.set id members, [], finished⟩
        | some (.list items) =>
          let parts := joinAll inner items finished
          close reading n { parts with part := .list id parts.part }
        | some (.map entries) =>
          let parts := joinAll (fun (entry : Document × Nat) finished =>
            let value := inner entry.2 finished
            { value with part := (entry.1, value.part) }) entries finished
          close reading n { parts with part := .map id parts.part }
        | some (.pairs entries) =>
          let parts := joinAll (fun (entry : Nat × Nat) finished =>
            let key := inner entry.1 finished
            let value := inner entry.2 key.finished
            ⟨Document.pair key.part value.part, key.outward ++ value.outward, value.finished⟩)
            entries finished
          close reading n { parts with part := .list id parts.part }

end Value

/-- The document of a graph; `reading` is the number of this reading. -/
def Graph.document (reading : Nat) (g : Graph) : Except ReadError Document := do
  let met ← (Making.start g.nodes).meet reading g.root
  let m ← met.rounds reading (g.nodes.size + 1)
  let finished : Finished := Array.replicate g.nodes.size none
  .ok (Value.join reading m.values (g.nodes.size + 1) [] g.root finished).part

end SlotSafe.Yaml
