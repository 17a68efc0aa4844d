import SlotSafe.Proofs.ReadDocuments
import SlotSafe.Proofs.WellKinded

/-!
# Which documents are accepted as snapshots

Whether a document is a snapshot is decided on the way from its members to the layout: a member may be
missing, a section may have the wrong shape, an entry may lack a field, and in the end the types may
not describe all items. Put together these checks ask for what a complete snapshot has (`IsComplete`).
**What is complete is accepted, and of anything else it is told what is wrong**, as long as the type
keys of the entries are texts (`accepts_complete`).

The layout has an item for each entry and a label for each type, in their order (`IsLayoutOf`), and
nothing else of the snapshot is left in it. So the document of the layout is the snapshot brought into
a normal form: it is accepted with the same layout (`ofDocument_toDocument`).
-/

namespace SlotSafe.Layout

open Document

/-! ## Complete snapshots -/

/-- **A complete snapshot**: a list of maps under `storage`, each with a contract, a label and a type, a
map of maps under `types`, each with a label, and the type of every entry among the types. -/
structure IsComplete (d : Document) (entries : List Document) (types : List (Document × Document)) :
    Prop where
  storage_at : ∃ id, d.at? "storage" = some (.list id entries)
  types_at : ∃ id, d.at? "types" = some (.map id types)
  entries_maps : ∀ entry ∈ entries, entry.isMap = true
  types_maps : ∀ entry ∈ types, entry.2.isMap = true
  fields : ∀ entry ∈ entries, ∀ name ∈ ["contract", "label", "type"], (entry.at? name).isSome = true
  labels : ∀ entry ∈ types, (entry.2.at? "label").isSome = true
  described : ∀ entry ∈ entries, ∀ key, entry.at? "type" = some key → key ∈ types.map (·.1)

/-- The type keys of the entries are texts, where they are given. -/
def TypesAreTexts (d : Document) : Prop :=
  ∀ id entries, d.at? "storage" = some (.list id entries) → ∀ entry ∈ entries, ∀ key,
    entry.at? "type" = some key → key.isText = true

/-- **The layout of entries and types**, all of them in their order. -/
structure IsLayoutOf (entries : List Document) (types : List (Document × Document)) (l : Layout) :
    Prop where
  items : List.Forall₂ IsItemOf entries l.items
  types : List.Forall₂ IsLabelOf types l.types.entries

variable {d : Document} {entries : List Document} {types : List (Document × Document)} {l : Layout}

/-! ## Sections of read documents -/

theorem IsComplete.hasSections (h : IsComplete d entries types) : HasSections d entries types := by
  obtain ⟨storageId, hstorage⟩ := h.storage_at
  obtain ⟨typesId, htypes⟩ := h.types_at
  exact ⟨⟨_, hstorage, storageEntries_eq_ok_iff.mpr ⟨⟨storageId, rfl⟩, h.entries_maps⟩⟩,
    _, htypes, typeEntries_eq_ok_iff.mpr ⟨⟨typesId, rfl⟩, h.types_maps⟩⟩

/-- **The sections of a read document** are a list and a map that were read: what they hold was read
too, and the type keys are distinct texts. -/
structure HasReadSections (d : Document) (entries : List Document)
    (types : List (Document × Document)) : Prop where
  storage_at : ∃ id, d.at? "storage" = some (.list id entries)
  types_at : ∃ id, d.at? "types" = some (.map id types)
  entries_read : ∀ entry ∈ entries, entry.IsRead
  keys : ∀ entry ∈ types, entry.1.isText = true
  values_read : ∀ entry ∈ types, entry.2.IsRead
  distinct : Table.DistinctKeys (types.map (·.1))

theorem HasSections.read (h : HasSections d entries types) (hread : d.IsRead) :
    HasReadSections d entries types := by
  obtain ⟨⟨storage, hstorage, hentries⟩, described, hdescribed, htypes⟩ := h
  have hstorageRead := hread.of_at? hstorage
  have hdescribedRead := hread.of_at? hdescribed
  obtain ⟨⟨storageId, hlist⟩, -⟩ := storageEntries_eq_ok_iff.mp hentries
  obtain ⟨⟨typesId, hmap⟩, -⟩ := typeEntries_eq_ok_iff.mp htypes
  rw [hstorageRead.unrolled] at hlist
  rw [hdescribedRead.unrolled] at hmap
  subst hlist hmap
  cases hstorageRead with
  | list hitems =>
    cases hdescribedRead with
    | map hkeys hdistinct hvalues =>
      exact ⟨⟨_, hstorage⟩, ⟨_, hdescribed⟩, hitems, hkeys, hvalues, hdistinct⟩

theorem keys_of_isLabelOf {labels : List (Document × Document)}
    (h : List.Forall₂ IsLabelOf types labels) : labels.map (·.1) = types.map (·.1) := by
  induction h with
  | nil => rfl
  | cons hlabel _ ih => rw [List.map_cons, List.map_cons, hlabel.key, ih]

/-- **A read document is accepted with the layout of its sections.** -/
theorem ofDocument_eq_ok_iff_isLayoutOf (hread : d.IsRead) :
    ofDocument d = .ok l ↔ ∃ entries types, HasSections d entries types ∧ IsLayoutOf entries types l := by
  have htable {entries : List Document} {types labels : List (Document × Document)}
      (hsections : HasSections d entries types) (hlabels : List.Forall₂ IsLabelOf types labels) :
      Table.ofList labels = ⟨labels⟩ := by
    refine Table.ofList_of_distinctKeys ?_
    rw [keys_of_isLabelOf hlabels]
    exact (hsections.read hread).distinct
  rw [ofDocument_eq_ok_iff]
  constructor
  · rintro ⟨entries, types, labels, hsections, hitems, hlabels, htypes⟩
    rw [htable hsections hlabels] at htypes
    exact ⟨entries, types, hsections, hitems, htypes ▸ hlabels⟩
  · rintro ⟨entries, types, hsections, hitems, hlabels⟩
    exact ⟨entries, types, l.types.entries, hsections, hitems, hlabels, (htable hsections hlabels).symm⟩

/-! ## Acceptance -/

/-- A key is found among texts when it is one of them. -/
theorem contains_iff_mem_keys {t : Table Document} (htexts : ∀ entry ∈ t.entries, entry.1.isText = true)
    {key : Document} : t.contains key = true ↔ key ∈ t.keys := by
  unfold Table.contains Table.keys
  rw [List.any_eq_true, List.mem_map]
  refine exists_congr fun entry => and_congr_right fun hentry => ?_
  obtain ⟨name, hname⟩ := exists_text_of_isText (htexts entry hentry)
  rw [hname, sameKey_text_iff, eq_comm]

theorem isText_of_isLabelOf {labels : List (Document × Document)}
    (h : List.Forall₂ IsLabelOf types labels) (hkeys : ∀ entry ∈ types, entry.1.isText = true) :
    ∀ labelled ∈ labels, labelled.1.isText = true := by
  intro labelled hlabelled
  obtain ⟨entry, hentry, hlabel⟩ := exists_mem_of_forall₂ h hlabelled
  rw [hlabel.key]
  exact hkeys entry hentry

/-- **A complete snapshot has a layout.** -/
theorem IsComplete.exists_isLayoutOf (h : IsComplete d entries types)
    (hkeys : ∀ entry ∈ types, entry.1.isText = true) : ∃ l, IsLayoutOf entries types l := by
  have hitem : ∀ entry ∈ entries, ∃ item, IsItemOf entry item := by
    intro entry hentry
    have hfield (name : String) (hname : name ∈ ["contract", "label", "type"]) :
        ∃ v, entry.at? name = some v := Option.isSome_iff_exists.mp (h.fields entry hentry name hname)
    obtain ⟨contract, hcontract⟩ := hfield "contract" (by simp)
    obtain ⟨label, hlabel⟩ := hfield "label" (by simp)
    obtain ⟨type, htype⟩ := hfield "type" (by simp)
    exact ⟨⟨contract, label, type, _⟩, hcontract, hlabel, htype, rfl⟩
  have hlabel : ∀ entry ∈ types, ∃ labelled, IsLabelOf entry labelled := by
    intro entry hentry
    obtain ⟨label, hlabel⟩ := Option.isSome_iff_exists.mp (h.labels entry hentry)
    exact ⟨(entry.1, label), rfl, hlabel⟩
  obtain ⟨items, hitems⟩ := exists_forall₂ hitem
  obtain ⟨labels, hlabels⟩ := exists_forall₂ hlabel
  refine ⟨⟨items, ⟨labels⟩, fun item hitem => ?_⟩, hitems, hlabels⟩
  obtain ⟨entry, hentry, hof⟩ := exists_mem_of_forall₂ hitems hitem
  refine (contains_iff_mem_keys (isText_of_isLabelOf hlabels hkeys)).mpr ?_
  rw [Table.keys, keys_of_isLabelOf hlabels]
  exact h.described entry hentry item.type hof.type

/-- **Where sections have a layout the snapshot is complete.** -/
theorem HasSections.isComplete (h : HasSections d entries types) (hread : d.IsRead)
    (hl : IsLayoutOf entries types l) : IsComplete d entries types := by
  obtain ⟨hstorage, htypes, -, hkeys, -⟩ := h.read hread
  obtain ⟨⟨storage, -, hentries⟩, described, -, htyped⟩ := h
  refine ⟨hstorage, htypes, (storageEntries_eq_ok_iff.mp hentries).2, (typeEntries_eq_ok_iff.mp htyped).2,
    fun entry hentry => ?_, fun entry hentry => ?_, fun entry hentry key hkey => ?_⟩
  · obtain ⟨item, -, hof⟩ := exists_mem_of_forall₂ hl.items.flip hentry
    simp [hof.contract, hof.label, hof.type]
  · obtain ⟨labelled, -, hof⟩ := exists_mem_of_forall₂ hl.types.flip hentry
    rw [hof.label]
    rfl
  · obtain ⟨item, hitem, hof⟩ := exists_mem_of_forall₂ hl.items.flip hentry
    obtain rfl : item.type = key := Option.some.inj (hof.type.symm.trans hkey)
    have hclosed := l.closed item hitem
    rwa [contains_iff_mem_keys (isText_of_isLabelOf hl.types hkeys), Table.keys,
      keys_of_isLabelOf hl.types] at hclosed

/-! ## Layouts of read documents -/

/-- **A layout of documents that were read.** -/
structure OfRead (l : Layout) : Prop where
  fields : ∀ item ∈ l.items, ∀ field ∈ item.fields, field.IsRead
  keys : ∀ entry ∈ l.types.entries, entry.1.isText = true
  labels : ∀ entry ∈ l.types.entries, entry.2.IsRead
  distinct : Table.DistinctKeys l.types.keys

theorem eq_of_mem_zip_self {α : Type} {as : List α} {pair : α × α} (h : pair ∈ as.zip as) :
    pair.1 ∈ as ∧ pair.1 = pair.2 := by
  have hzip : as.zip as = as.map fun a => (a, a) := by
    simpa using List.zip_map' (f := id) (g := id) (l := as)
  rw [hzip] at h
  obtain ⟨a, ha, rfl⟩ := List.mem_map.mp h
  exact ⟨ha, rfl⟩

theorem OfRead.find?_entries (h : l.OfRead) {entry : Document × Document}
    (hentry : entry ∈ l.types.entries) :
    l.types.entries.find? (fun other => entry.1.sameKey other.1) = some entry := by
  obtain ⟨name, hname⟩ := exists_text_of_isText (h.keys entry hentry)
  refine Table.find?_entries_of_mem h.distinct hentry ?_
  rw [hname, sameKey_text, beq_self_eq_true]

/-- Beside the labels of a layout stand the labels themselves. -/
theorem OfRead.of_mem_valuesBeside (h : l.OfRead) {listed : List (Document × Document)}
    (hlisted : listed ⊆ l.types.entries) {pair : Document × Document}
    (hpair : pair ∈ valuesBeside l.types.entries listed) : pair.1 = pair.2 ∧ pair.1.IsRead := by
  induction listed with
  | nil => cases hpair
  | cons entry rest ih =>
    obtain ⟨hentry, hrest⟩ := List.cons_subset.mp hlisted
    unfold valuesBeside at hpair
    rw [h.find?_entries hentry] at hpair
    obtain rfl | hpair := List.mem_cons.mp hpair
    · exact ⟨rfl, h.labels entry hentry⟩
    · exact ih hrest hpair

theorem OfRead.compares_self [NestingLimits] (h : l.OfRead) : l.compares l = true := by
  have hdepth : 0 < NestingLimits.comparing :=
    Nat.lt_of_lt_of_le (by decide) NestingLimits.eight_le_comparing
  refine Bool.and_eq_true_iff.mpr ⟨partsCompare_self hdepth fun pair hpair => ?_,
    Bool.or_eq_true_iff.mpr (.inr (partsCompare_self hdepth fun pair hpair => ?_))⟩
  · obtain ⟨⟨a, b⟩, hitems, hpair⟩ := List.mem_flatMap.mp hpair
    obtain ⟨ha, hab⟩ := eq_of_mem_zip_self hitems
    obtain rfl : a = b := hab
    obtain ⟨hfield, hsame⟩ := eq_of_mem_zip_self hpair
    exact ⟨hsame, h.fields a ha pair.1 hfield⟩
  · exact h.of_mem_valuesBeside (List.Subset.refl l.types.entries) hpair

theorem OfRead.equal_self (h : l.OfRead) : l.equal l = true := by
  have hitem : ∀ item ∈ l.items, item.equal item = true := by
    intro item hitem
    have hfields := h.fields item hitem
    simp only [Item.fields, List.forall_mem_cons] at hfields
    obtain ⟨hcontract, hlabel, htype, hsrc, -⟩ := hfields
    rw [Item.equal, hcontract.same_self, hlabel.same_self, htype.same_self, hsrc.same_self]
    rfl
  have hitems : l.equalItems l = true := by
    unfold equalItems
    rw [beq_self_eq_true, Bool.true_and, List.all_eq_true]
    rintro ⟨a, b⟩ hpair
    obtain ⟨ha, hab⟩ := eq_of_mem_zip_self hpair
    obtain rfl : a = b := hab
    exact hitem a ha
  have htypes : l.types.equal Document.same l.types = true := by
    unfold Table.equal
    rw [beq_self_eq_true, Bool.true_and, List.all_eq_true]
    intro entry hentry
    rw [Table.find?, h.find?_entries hentry]
    exact (h.labels entry hentry).same_self
  rw [equal, hitems, htypes]
  rfl

/-- **A layout of documents that were read equals itself**, and this is found out. -/
theorem OfRead.isEqual_self [NestingLimits] (h : l.OfRead) : l.isEqual l = .ok true := by
  rw [isEqual, if_pos h.compares_self, h.equal_self]

/-! ## The normal form -/

theorem hasSections_toDocument (l : Layout) :
    HasSections l.toDocument (l.items.map Item.toDocument)
      (l.types.mapValues fun label => .record [("label", label)]).entries where
  storage_at := ⟨.row (l.items.map Item.toDocument),
    by simp [toDocument, record, at?, table?, Document.unrolled, Table.find?_cons],
    storageEntries_eq_ok_iff.mpr ⟨⟨none, rfl⟩, List.forall_mem_map.mpr fun _ _ => rfl⟩⟩
  types_at := ⟨.map none (l.types.mapValues fun label => .record [("label", label)]).entries,
    by simp [toDocument, record, at?, table?, Document.unrolled, Table.find?_cons],
    typeEntries_eq_ok_iff.mpr ⟨⟨none, rfl⟩, List.forall_mem_map.mpr fun _ _ => rfl⟩⟩

theorem isItemOf_toDocument (item : Item) : IsItemOf item.toDocument item := by
  constructor <;>
    simp [Item.toDocument, record, at?, table?, Document.unrolled, Table.find?_cons]

theorem isLabelOf_record (entry : Document × Document) :
    IsLabelOf (entry.1, .record [("label", entry.2)]) entry := by
  constructor <;> simp [record, at?, table?, Document.unrolled, Table.find?_cons]

/-- **A layout comes back from its document**, if its type keys are distinct. -/
theorem ofDocument_toDocument (h : Table.DistinctKeys l.types.keys) : ofDocument l.toDocument = .ok l := by
  refine ofDocument_eq_ok_iff.mpr ⟨_, _, l.types.entries, hasSections_toDocument l, ?_, ?_,
    (Table.ofList_of_distinctKeys h).symm⟩
  · exact List.forall₂_map_left_iff.mpr (List.forall₂_same.mpr fun item _ => isItemOf_toDocument item)
  · exact List.forall₂_map_left_iff.mpr (List.forall₂_same.mpr fun entry _ => isLabelOf_record entry)

/-- **The normal form of a snapshot**: the document of its layout. -/
def normalForm (d : Document) : Except Fault Document := (ofDocument d).map toDocument

/-! ## What is accepted -/

/-- **The layout of a read document** is one of read documents. -/
theorem HasReadSections.ofRead (h : HasReadSections d entries types) (hl : IsLayoutOf entries types l) :
    l.OfRead := by
  refine ⟨fun item hitem => ?_, isText_of_isLabelOf hl.types h.keys, fun labelled hlabelled => ?_, ?_⟩
  · obtain ⟨entry, hentry, hof⟩ := exists_mem_of_forall₂ hl.items hitem
    have hentry := h.entries_read entry hentry
    have hsrc : item.src.IsRead := by
      rw [← hof.src]
      cases hat : entry.at? "src" with
      | none => exact .text _
      | some src => exact hentry.of_at? hat
    simp only [Item.fields, List.forall_mem_cons]
    exact ⟨hentry.of_at? hof.contract, hentry.of_at? hof.label, hentry.of_at? hof.type, hsrc,
      List.forall_mem_nil _⟩
  · obtain ⟨entry, hentry, hof⟩ := exists_mem_of_forall₂ hl.types hlabelled
    exact (h.values_read entry hentry).of_at? hof.label
  · rw [Table.keys, keys_of_isLabelOf hl.types]
    exact h.distinct

/-- Where the type keys of entries are texts the document has the expected kinds. -/
theorem isSnapshot_of_typesAreTexts (hread : d.IsRead) (h : TypesAreTexts d) :
    isSnapshot true d = true := by
  refine allAt_of_forall fun storage hstorage => ?_
  split
  · next entries hentries =>
    obtain ⟨⟨id, hlist⟩, -⟩ := storageEntries_eq_ok_iff.mp hentries
    rw [(hread.of_at? hstorage).unrolled] at hlist
    subst hlist
    refine List.all_eq_true.mpr fun entry hentry => ?_
    rw [Bool.true_or, Bool.and_true]
    exact allAt_of_forall (h id entries hstorage entry hentry)
  · rfl

/-- **A document is accepted exactly when it is a complete snapshot**, and of any other it is told what
is wrong with it. The layout has the entries and the types of the snapshot in their order, its document
is accepted with an equal layout, and so that document is a normal form of the snapshot. -/
theorem accepts_complete [NestingLimits] (hread : d.IsRead) (hmap : d.isMap = true)
    (htexts : TypesAreTexts d) :
    ((∃ l, ofDocument d = .ok l) ↔ ∃ entries types, IsComplete d entries types)
      ∧ ((¬∃ entries types, IsComplete d entries types) →
        ∃ cause, ofDocument d = .error (.malformed cause))
      ∧ ∀ l, ofDocument d = .ok l →
        (∃ entries types, IsComplete d entries types ∧ IsLayoutOf entries types l)
          ∧ (∃ again, ofDocument l.toDocument = .ok again ∧ again.isEqual l = .ok true)
          ∧ normalForm d = .ok l.toDocument ∧ normalForm l.toDocument = .ok l.toDocument := by
  have haccepts : (∃ l, ofDocument d = .ok l) ↔ ∃ entries types, IsComplete d entries types := by
    constructor
    · rintro ⟨l, hl⟩
      obtain ⟨entries, types, hsections, hlayout⟩ := (ofDocument_eq_ok_iff_isLayoutOf hread).mp hl
      exact ⟨entries, types, hsections.isComplete hread hlayout⟩
    · rintro ⟨entries, types, hcomplete⟩
      obtain ⟨l, hlayout⟩ := hcomplete.exists_isLayoutOf (hcomplete.hasSections.read hread).keys
      exact ⟨l, (ofDocument_eq_ok_iff_isLayoutOf hread).mpr
        ⟨entries, types, hcomplete.hasSections, hlayout⟩⟩
  refine ⟨haccepts, fun hnone => ?_, fun l hl => ?_⟩
  · cases hresult : ofDocument d with
    | ok l => exact absurd (haccepts.mp ⟨l, hresult⟩) hnone
    | error fault =>
      obtain ⟨cause, rfl⟩ :=
        ofDocument_malformed hmap (isSnapshot_of_typesAreTexts hread htexts) fault hresult
      exact ⟨cause, rfl⟩
  · obtain ⟨entries, types, hsections, hlayout⟩ := (ofDocument_eq_ok_iff_isLayoutOf hread).mp hl
    have hofRead := (hsections.read hread).ofRead hlayout
    have hback := ofDocument_toDocument hofRead.distinct
    refine ⟨⟨entries, types, hsections.isComplete hread hlayout, hlayout⟩,
      ⟨l, hback, hofRead.isEqual_self⟩, ?_, ?_⟩
    · rw [normalForm, hl]
      rfl
    · rw [normalForm, hback]
      rfl

/-! ## An example -/

/-- An entry of a variable without a place. -/
def flagEntry : Document :=
  .map (some ⟨1, 3⟩) [
    (.text "contract", .text "C"), (.text "label", .text "a"), (.text "type", .text "t_bool")]

/-- A snapshot of one variable that describes one type. -/
def flagSnapshot (key : String) : Document :=
  .map (some ⟨1, 5⟩) [
    (.text "storage", .list (some ⟨1, 4⟩) [flagEntry]),
    (.text "types", .map (some ⟨1, 2⟩)
      [(.text key, .map (some ⟨1, 1⟩) [(.text "label", .text "bool")])])]

theorem isRead_flagSnapshot (key : String) : (flagSnapshot key).IsRead := by
  have hentry : flagEntry.IsRead :=
    .map (by decide) (by decide) (by simpa using ⟨.text "C", .text "a", .text "t_bool"⟩)
  have htypes : (Document.map (some ⟨1, 2⟩)
      [(.text key, .map (some ⟨1, 1⟩) [(.text "label", .text "bool")])]).IsRead := by
    refine .map (List.forall_mem_singleton.mpr rfl) (List.pairwise_singleton _ _)
      (List.forall_mem_singleton.mpr (.map (by decide) (by decide) ?_))
    exact List.forall_mem_singleton.mpr (.text _)
  refine .map (List.forall_mem_cons.mpr ⟨rfl, List.forall_mem_singleton.mpr rfl⟩) ?_
    (List.forall_mem_cons.mpr ⟨.list (List.forall_mem_singleton.mpr hentry),
      List.forall_mem_singleton.mpr htypes⟩)
  show Table.DistinctKeys [.text "storage", .text "types"]
  decide

theorem typesAreTexts_flagSnapshot (key : String) : TypesAreTexts (flagSnapshot key) := by
  intro id entries hstorage entry hentry type htype
  obtain rfl := (Document.list.inj (Option.some.inj hstorage)).2
  obtain rfl := List.mem_singleton.mp hentry
  obtain rfl := Option.some.inj htype
  rfl

/-- **The variable has an item whose place is unknown if its type is described**, and else the snapshot
is not accepted. -/
theorem accepts_complete_flagSnapshot :
    (∃ l, ofDocument (flagSnapshot "t_bool") = .ok l ∧ List.Forall₂ IsItemOf [flagEntry] l.items
        ∧ normalForm l.toDocument = .ok l.toDocument)
      ∧ ∃ cause, ofDocument (flagSnapshot "t_int") = .error (.malformed cause) := by
  have haccepts (key : String) := accepts_complete (isRead_flagSnapshot key) rfl
    (typesAreTexts_flagSnapshot key)
  have hsections {key : String} {entries : List Document} {types : List (Document × Document)}
      (h : IsComplete (flagSnapshot key) entries types) :
      entries = [flagEntry] ∧ types.map (·.1) = [.text key] := by
    obtain ⟨storageId, hstorage⟩ := h.storage_at
    obtain ⟨typesId, htypes⟩ := h.types_at
    obtain rfl := (Document.list.inj (Option.some.inj hstorage)).2
    obtain rfl := (Document.map.inj (Option.some.inj htypes)).2
    exact ⟨rfl, rfl⟩
  constructor
  · obtain ⟨hiff, -, hlayout⟩ := haccepts "t_bool"
    have hcomplete : IsComplete (flagSnapshot "t_bool") [flagEntry]
        [(.text "t_bool", .map (some ⟨1, 1⟩) [(.text "label", .text "bool")])] := by
      refine ⟨⟨_, rfl⟩, ⟨_, rfl⟩, by decide, by decide, by decide, by decide, ?_⟩
      intro entry hentry key hkey
      obtain rfl := List.mem_singleton.mp hentry
      obtain rfl := Option.some.inj hkey
      exact List.mem_singleton.mpr rfl
    obtain ⟨l, hl⟩ := hiff.mpr ⟨_, _, hcomplete⟩
    obtain ⟨⟨entries, types, hfound, hof⟩, -, -, hnormal⟩ := hlayout l hl
    obtain ⟨rfl, -⟩ := hsections hfound
    exact ⟨l, hl, hof.items, hnormal⟩
  · obtain ⟨-, hrejects, -⟩ := haccepts "t_int"
    refine hrejects ?_
    rintro ⟨entries, types, h⟩
    obtain ⟨rfl, htypes⟩ := hsections h
    have hdescribed := h.described flagEntry List.mem_cons_self (.text "t_bool") rfl
    rw [htypes] at hdescribed
    exact absurd (Document.text.inj (List.mem_singleton.mp hdescribed)) (by decide)

end SlotSafe.Layout
