import SlotSafe.Document.Access

/-!
# Storage layouts

A storage layout lists the persistent variables of a contract in the order of their slots, and gives
a label to every type key: the type as the compiler writes it. The fields of an item are documents,
since a snapshot may hold anything there, and only their equality matters.

**Every layout is closed under its types**: the type key of each item has a label. The type
carries the proof, so each way to build a layout establishes it: `Layout.ofParts` by a check,
`Layout.concat` because joining tables loses no key.
-/

namespace SlotSafe

/-- A persistent variable: the contract that declares it, its name, its type key, and where it
stands in the source. -/
structure Item where
  contract : Document
  label : Document
  type : Document
  src : Document

namespace Item

/-- The item as a document. -/
def toDocument (item : Item) : Document :=
  .record [("contract", item.contract), ("label", item.label), ("type", item.type),
    ("src", item.src)]

/-- The fields of an item, in order. -/
def fields (item : Item) : List Document := [item.contract, item.label, item.type, item.src]

/-- Items are equal when all their fields are the same. -/
def equal (a b : Item) : Bool :=
  a.contract.same b.contract && a.label.same b.label && a.type.same b.type && a.src.same b.src

end Item

/-- A storage layout. -/
structure Layout where
  items : List Item
  /-- The label of each type key. -/
  types : Table Document
  closed : ∀ item ∈ items, types.contains item.type = true

namespace Layout

/-- The number of variables. -/
def size (l : Layout) : Nat := l.items.length

/-- The type keys of items that a table does not describe. -/
def missingTypes (items : List Item) (types : Table Document) : List Document :=
  (items.filter fun item => !types.contains item.type).map (·.type)

/-- What is wrong with items whose types are not all described: the missing keys, each once and in
order, if they are texts. -/
def missingFault (items : List Item) (types : Table Document) : Fault :=
  if items.all (fun item => item.type.isKey) then
    match (missingTypes items types).mapM Document.text? with
    | some names => .malformed (.unknownTypes (names.eraseDups.mergeSort fun a b => a ≤ b))
    | none => .mismatch
  else .mismatch

/-- The layout of items and types, if the types describe every item. -/
def ofParts (items : List Item) (types : Table Document) : Except Fault Layout :=
  if h : ∀ item ∈ items, types.contains item.type = true then .ok ⟨items, types, h⟩
  else .error (missingFault items types)

/-- The label of an item's type, for any item at all. -/
def typeLabel (l : Layout) (item : Item) : Except Fault Document := do
  match ← Document.lookUp l.types item.type with
  | some label => .ok label
  | none => .error (.missingKey item.type)

/-- The label of an item's type, for the items of the layout, which all have one. -/
def labelOf (l : Layout) (item : Item) : Document := (l.types.find? item.type).getD .null

/-- Whether layouts have equal items in the same order. -/
def equalItems (l m : Layout) : Bool :=
  l.items.length == m.items.length && (l.items.zip m.items).all fun (a, b) => a.equal b

/-- Layouts are equal when they have equal items in the same order and the same types in any
order. -/
def equal (l m : Layout) : Bool := l.equalItems m && l.types.equal Document.same m.types

section NestingLimits

variable [NestingLimits]

/-- Whether it is found out that layouts are equal or not, nothing in them lying too deep. -/
def compares (l m : Layout) : Bool :=
  let deep := Document.comparesWithin NestingLimits.comparing
  Document.partsCompare deep ((l.items.zip m.items).flatMap fun (a, b) => a.fields.zip b.fields)
    && (!l.equalItems m
      || Document.partsCompare deep (Document.valuesBeside m.types.entries l.types.entries))

/-- Whether layouts are equal, if that is found out. -/
def isEqual (l m : Layout) : Except Fault Bool :=
  if l.compares m then .ok (l.equal m) else .error (.tooDeep .comparing)

end NestingLimits

/-- The items of layouts joined end to end. -/
def joinedItems (layouts : List Layout) : List Item := layouts.flatMap (·.items)

/-- The types of layouts joined in order: a key keeps its first place and its last label. -/
def joinedTypes (layouts : List Layout) : Table Document :=
  .ofList (layouts.flatMap (·.types.entries))

theorem joined_closed (layouts : List Layout) :
    ∀ item ∈ joinedItems layouts, (joinedTypes layouts).contains item.type = true := by
  intro item h
  obtain ⟨l, hl, hi⟩ := List.mem_flatMap.1 h
  refine Table.contains_insertAll_of_any (List.any_eq_true.2 ?_)
  obtain ⟨entry, he, hk⟩ := List.any_eq_true.1 (l.closed item hi)
  exact ⟨entry, List.mem_flatMap.2 ⟨l, hl, he⟩, hk⟩

/-- Layouts joined end to end, such as those of the bases of a contract. -/
def concat (layouts : List Layout) : Layout :=
  ⟨joinedItems layouts, joinedTypes layouts, joined_closed layouts⟩

/-- The layout without variables. -/
def empty : Layout := ⟨[], .empty, by simp⟩

/-- Every item of a layout has its label. -/
theorem typeLabel_eq_labelOf (l : Layout) {item : Item} (h : item ∈ l.items) :
    l.typeLabel item = .ok (l.labelOf item) := by
  have hc := l.closed item h
  obtain ⟨entry, -, he⟩ := List.any_eq_true.1 hc
  have hk := Document.isKey_of_sameKey he
  rw [Table.contains_eq_isSome_find?, Option.isSome_iff_exists] at hc
  obtain ⟨label, hl⟩ := hc
  simp [typeLabel, labelOf, Document.lookUp, hk, hl, bind, Except.bind]

end Layout

end SlotSafe
