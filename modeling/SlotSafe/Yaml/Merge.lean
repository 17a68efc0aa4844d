import SlotSafe.Yaml.Node

/-!
# Entries that a map takes over

A map can name other maps under merge keys. Before it is read it takes over their entries: merge
keys go away, and what they bring comes first, so that a map's own entries prevail. Of several maps
that are listed under one merge key the last comes first, so that the first prevails. A map that is
named takes over its own entries before.

Since a map can name itself, a merge key is taken out before the maps under it are looked at; the
number of merge keys bounds all that follows.
-/

namespace SlotSafe.Yaml

namespace Nodes

/-- The entries of a node, if it is a map. -/
def entries? (nodes : Nodes) (n : Nat) : Option (List (Nat × Nat)) :=
  match (nodes.node n).content with
  | .map entries => some entries
  | _ => none

/-- The number of entries of all maps. -/
def entryCount (nodes : Nodes) : Nat :=
  nodes.foldl (fun count node => match node.content with
    | .map entries => count + entries.length
    | _ => count) 0

/-- A key as it stands in a map: the sign of a value is a text there. -/
def settleKey (nodes : Nodes) (entry : Nat × Nat) : Nodes :=
  if nodes.hasKind .value entry.1 then
    nodes.modify entry.1 fun node => { node with kind := some .text }
  else nodes

/-- The place of the first merge key at or after a place. -/
def mergeFrom? (nodes : Nodes) (place : Nat) (entries : List (Nat × Nat)) : Option Nat :=
  ((entries.drop place).findIdx? fun entry => nodes.hasKind .merge entry.1).map (place + ·)

/-- The entries of listed maps, `flatten` letting a map take over its own. -/
def listed (flatten : Nat → Nodes → Except ReadError Nodes) (nodes : Nodes) :
    List Nat → Except ReadError (List (Nat × Nat) × Nodes)
  | [] => .ok ([], nodes)
  | n :: rest => match nodes.entries? n with
    | none => .error .mergeSource
    | some _ => do
      let nodes ← flatten n nodes
      let first := (nodes.entries? n).getD []
      let (others, nodes) ← listed flatten nodes rest
      .ok (others ++ first, nodes)

/-- The entries that are taken over from what stands under a merge key. -/
def sourceEntries (flatten : Nat → Nodes → Except ReadError Nodes) (nodes : Nodes) (n : Nat) :
    Except ReadError (List (Nat × Nat) × Nodes) :=
  match (nodes.node n).content with
  | .map _ => listed flatten nodes [n]
  | .list items => listed flatten nodes items
  | .scalar _ => .error .mergeSource

/-- Lets a map take over entries, from a place on, `taken` being those taken over so far. -/
def takeOverFrom : (fuel n place : Nat) → (taken : List (Nat × Nat)) → Nodes →
    Except ReadError Nodes
  | 0, _, _, _, nodes => .ok nodes
  | fuel + 1, n, place, taken, nodes =>
    let entries := (nodes.entries? n).getD []
    match nodes.mergeFrom? place entries with
    | none => .ok ((entries.foldl settleKey nodes).fill n (.map (taken ++ entries)))
    | some found => do
      let source := (entries.getD found (0, 0)).2
      let nodes := nodes.fill n (.map (entries.eraseIdx found))
      let (more, nodes) ← nodes.sourceEntries (takeOverFrom fuel · 0 []) source
      takeOverFrom fuel n found (taken ++ more) nodes

/-- Lets a map take over the entries of all maps that it names. -/
def takeOver (nodes : Nodes) (n : Nat) : Except ReadError Nodes :=
  takeOverFrom (nodes.entryCount + 1) n 0 [] nodes

end Nodes

end SlotSafe.Yaml
