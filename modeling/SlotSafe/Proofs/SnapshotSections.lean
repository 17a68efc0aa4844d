import SlotSafe.Layout.Snapshot
import SlotSafe.Proofs.Declarations

/-!
# How a snapshot is read

A snapshot is read by its sections, and these entry by entry. Each step gives a result exactly when
what it asks for is there: a member under its name, a section of the right shape, in every entry the
fields of an item (`IsItemOf`), under every type a label (`IsLabelOf`). **So a layout is read exactly
when the sections are there and the layout is made of what stands in them** (`ofDocument_eq_ok_iff`).
What is said of layouts that were read follows from this, and no step of the reading is opened again.
-/

namespace SlotSafe.Layout

open Document

variable {d v : Document} {entries : List Document} {types labels : List (Document × Document)}
  {items : List Item} {l : Layout}

/-! ## Entries -/

theorem required_eq_ok_iff {name : String} : required d name = .ok v ↔ d.at? name = some v := by
  rw [← member_eq_ok_iff]
  unfold required
  split
  · next h => simp [h]
  · rfl

/-- **The item of an entry**, its place unknown where it is not given. -/
structure IsItemOf (entry : Document) (item : Item) : Prop where
  contract : entry.at? "contract" = some item.contract
  label : entry.at? "label" = some item.label
  type : entry.at? "type" = some item.type
  src : (entry.at? "src").getD (.text "unknown") = item.src

/-- **The label of an entry** under `types`, with the same key. -/
structure IsLabelOf (entry labelled : Document × Document) : Prop where
  key : labelled.1 = entry.1
  label : entry.2.at? "label" = some labelled.2

theorem readItem_eq_ok_iff {entry : Document} {item : Item} :
    readItem entry = .ok item ↔ IsItemOf entry item := by
  unfold readItem
  simp only [bind_eq_ok_iff, required_eq_ok_iff, memberOr_eq_ok_iff]
  constructor
  · rintro ⟨contract, hcontract, label, hlabel, type, htype, src, ⟨-, hsrc⟩, hitem⟩
    cases hitem
    exact ⟨hcontract, hlabel, htype, hsrc⟩
  · rintro ⟨hcontract, hlabel, htype, hsrc⟩
    exact ⟨_, hcontract, _, hlabel, _, htype, _, ⟨isSome_table?_of_at? hcontract, hsrc⟩, rfl⟩

theorem readItems_eq_ok_iff : readItems entries = .ok items ↔ List.Forall₂ IsItemOf entries items := by
  induction entries generalizing items with
  | nil =>
    rw [readItems, List.forall₂_nil_left_iff]
    exact ⟨fun h => (Except.ok.inj h).symm, fun h => congrArg Except.ok h.symm⟩
  | cons entry rest ih =>
    rw [readItems]
    simp only [bind_eq_ok_iff, readItem_eq_ok_iff, ih, List.forall₂_cons_left_iff]
    constructor
    · rintro ⟨item, hitem, others, hothers, h⟩
      exact ⟨item, others, hitem, hothers, (Except.ok.inj h).symm⟩
    · rintro ⟨item, others, hitem, hothers, rfl⟩
      exact ⟨item, hitem, others, hothers, rfl⟩

theorem readTypes_eq_ok_iff : readTypes types = .ok labels ↔ List.Forall₂ IsLabelOf types labels := by
  induction types generalizing labels with
  | nil =>
    rw [readTypes, List.forall₂_nil_left_iff]
    exact ⟨fun h => (Except.ok.inj h).symm, fun h => congrArg Except.ok h.symm⟩
  | cons entry rest ih =>
    rw [readTypes]
    simp only [bind_eq_ok_iff, required_eq_ok_iff, ih, List.forall₂_cons_left_iff]
    constructor
    · rintro ⟨label, hlabel, others, hothers, h⟩
      exact ⟨(entry.1, label), others, ⟨rfl, hlabel⟩, hothers, (Except.ok.inj h).symm⟩
    · rintro ⟨labelled, others, ⟨hkey, hlabel⟩, hothers, rfl⟩
      exact ⟨labelled.2, hlabel, others, hothers, by rw [← hkey]⟩

/-! ## Sections -/

theorem storageEntries_eq_ok_iff :
    storageEntries v = .ok entries
      ↔ (∃ id, v.unrolled = .list id entries) ∧ ∀ entry ∈ entries, entry.isMap = true := by
  unfold storageEntries
  split
  · next id items hv =>
    simp only [hv, Document.list.injEq]
    constructor
    · intro h
      split at h
      · next hmaps =>
        cases h
        exact ⟨⟨id, rfl, rfl⟩, List.all_eq_true.mp hmaps⟩
      · cases h
    · rintro ⟨⟨_, -, rfl⟩, hmaps⟩
      exact if_pos (List.all_eq_true.mpr hmaps)
  · next hv =>
    constructor
    · intro h
      cases h
    · rintro ⟨⟨id, h⟩, -⟩
      exact absurd h (hv id entries)

theorem typeEntries_eq_ok_iff :
    typeEntries v = .ok types
      ↔ (∃ id, v.unrolled = .map id types) ∧ ∀ entry ∈ types, entry.2.isMap = true := by
  unfold typeEntries
  split
  · next id entries hv =>
    simp only [hv, Document.map.injEq]
    constructor
    · intro h
      split at h
      · next hmaps =>
        cases h
        exact ⟨⟨id, rfl, rfl⟩, List.all_eq_true.mp hmaps⟩
      · cases h
    · rintro ⟨⟨_, -, rfl⟩, hmaps⟩
      exact if_pos (List.all_eq_true.mpr hmaps)
  · next hv =>
    constructor
    · intro h
      cases h
    · rintro ⟨⟨id, h⟩, -⟩
      exact absurd h (hv id types)

/-- **The sections of a snapshot**: a list of maps under `storage`, a map of maps under `types`. -/
structure HasSections (d : Document) (entries : List Document) (types : List (Document × Document)) :
    Prop where
  storage_at : ∃ storage, d.at? "storage" = some storage ∧ storageEntries storage = .ok entries
  types_at : ∃ described, d.at? "types" = some described ∧ typeEntries described = .ok types

theorem ofParts_eq_ok_iff {types : Table Document} :
    ofParts items types = .ok l ↔ l.items = items ∧ l.types = types := by
  unfold ofParts
  constructor
  · intro h
    split at h
    · cases h
      exact ⟨rfl, rfl⟩
    · cases h
  · rintro ⟨rfl, rfl⟩
    exact dif_pos l.closed

/-- **A layout is read exactly when the sections are there and it is made of what stands in them**: an
item for each entry, and the labels of the types in a table. -/
theorem ofDocument_eq_ok_iff :
    ofDocument d = .ok l ↔ ∃ entries types labels, HasSections d entries types
      ∧ List.Forall₂ IsItemOf entries l.items ∧ List.Forall₂ IsLabelOf types labels
      ∧ l.types = .ofList labels := by
  unfold ofDocument
  simp only [bind_eq_ok_iff, required_eq_ok_iff, readItems_eq_ok_iff, readTypes_eq_ok_iff,
    ofParts_eq_ok_iff]
  constructor
  · rintro ⟨storage, hstorage, described, hdescribed, entries, hentries, types, htypes, items, hitems,
      labels, hlabels, rfl, htable⟩
    exact ⟨entries, types, labels, ⟨⟨storage, hstorage, hentries⟩, described, hdescribed, htypes⟩, hitems,
      hlabels, htable⟩
  · rintro ⟨entries, types, labels, ⟨⟨storage, hstorage, hentries⟩, described, hdescribed, htypes⟩, hitems,
      hlabels, htable⟩
    exact ⟨storage, hstorage, described, hdescribed, entries, hentries, types, htypes, l.items, hitems,
      labels, hlabels, rfl, htable⟩

end SlotSafe.Layout
