import SlotSafe.Fault

/-!
# Reaching into documents

Nothing is assumed of the shape of a document that is looked into. An operation that a kind of
document lacks, such as asking a list for a member, is `Fault.unsupported`; one that meets a kind it
is not defined for, such as running through a number, is `Fault.mismatch`.
-/

namespace SlotSafe.Document

/-- The table of a map. -/
def table? (d : Document) : Option (Table Document) :=
  match d.unrolled with
  | map _ entries => some ⟨entries⟩
  | _ => none

/-- The member of a map under a name, if there is one. -/
def member? (d : Document) (name : String) : Except Fault (Option Document) :=
  match d.table? with
  | some table => .ok (table.find? (.text name))
  | none => .error .unsupported

/-- The member of a map under a name, or a document to take its place. -/
def memberOr (d : Document) (name : String) (absent : Document) : Except Fault Document :=
  (d.member? name).map (·.getD absent)

/-- The member of a map under a name, or null. -/
def memberOrNull (d : Document) (name : String) : Except Fault Document := d.memberOr name .null

/-- The member that a map must have under a name. -/
def member (d : Document) (name : String) : Except Fault Document :=
  match d.table? with
  | some table => match table.find? (.text name) with
    | some value => .ok value
    | none => .error (.missingKey (.text name))
  | none => .error .mismatch

/-- The entries of a map. -/
def entries (d : Document) : Except Fault (List (Document × Document)) :=
  match d.unrolled with
  | map _ entries => .ok entries
  | _ => .error .unsupported

/-- A point as a text of its own. -/
def ofPoint : Text.Point → Document
  | .char c => .text (String.singleton c)
  | .surrogate s => .unpaired ⟨[], s, []⟩

/-- The documents that a document runs through: the items of a list, the characters of a text, the
numbers of octets, the keys of a map. -/
def elements (d : Document) : Except Fault (List Document) :=
  match d.unrolled with
  | list _ items => .ok items
  | text s => .ok (s.toList.map fun c => .text (String.singleton c))
  | unpaired u => .ok (u.points.map ofPoint)
  | octets bytes => .ok (bytes.map fun b => .int b.toNat)
  | pair a b => .ok [a, b]
  | map _ entries => .ok (entries.map (·.1))
  | set _ members => .ok members
  | _ => .error .mismatch

/-- The documents that a document runs through from its end. A set has none. -/
def backwards (d : Document) : Except Fault (List Document) :=
  match d with
  | set _ _ => .error .mismatch
  | d => d.elements.map List.reverse

/-- Whether a text occurs inside another one. -/
def occursIn {α : Type} [BEq α] (word : List α) : List α → Bool
  | [] => word.isEmpty
  | c :: rest => word.isPrefixOf (c :: rest) || occursIn word rest

/-- Whether a name is a key of a map, an item of a list, a member of a set, or part of a text. -/
def mentions (d : Document) (name : String) : Except Fault Bool :=
  match d.unrolled with
  | map _ entries => .ok (Table.contains ⟨entries⟩ (.text name))
  | list _ items => .ok (items.any fun item => item == .text name)
  | pair a b => .ok (a == .text name || b == .text name)
  | set _ members => .ok (members.any fun member => member == .text name)
  | text s => .ok (occursIn name.toList s.toList)
  | unpaired u => .ok (occursIn (name.toList.map .char) u.points)
  | _ => .error .mismatch

/-- The value under a key, which must be one that can be looked up. -/
def lookUp {β : Type} (t : Table β) (key : Document) : Except Fault (Option β) :=
  if key.isKey then .ok (t.find? key) else .error .mismatch

@[simp] theorem member?_map (id : Option Identity) (entries : List (Document × Document))
    (name : String) : (map id entries).member? name = .ok (Table.find? ⟨entries⟩ (.text name)) := rfl

end SlotSafe.Document
