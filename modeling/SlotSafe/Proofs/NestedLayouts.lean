import SlotSafe.Proofs.ClosedLayouts
import SlotSafe.Proofs.ExtractedTexts
import SlotSafe.Proofs.SnapshotSections

/-!
# How layouts are nested

What stands in a layout that comes from JSON lies less deep than the file may go, for it lay deeper in
the file: three lists and maps are around every field of a snapshot (`Layout.within_ofDocument`), and
seven around the name of a contract in build info (`Compilation.namedBy_of_definitions`). What is made
of a layout to be saved or shown puts no more than three around it. **So a layout from JSON is saved,
and two of them are compared and told of, unless it lies too deep for that** (`Layout.Within.toDocument`,
`Layout.Within.mustCompare_eq_ok`, `Report.exists_operationsText_of_within`,
`Report.within_checkDocument`).
-/

namespace SlotSafe

/-! ## Layouts within bounds -/

/-- **A layout within bounds**: what stands in its items is within them, and so are the labels of its
types, whose keys are texts. -/
structure Layout.Within (height bound : Nat) (l : Layout) : Prop where
  fields : ∀ item ∈ l.items, ∀ field ∈ item.fields, field.Within height bound
  types : ∀ entry ∈ l.types.entries, entry.1.isText = true ∧ entry.2.Within height bound

namespace Document

theorem within_of_isText {d : Document} (h : d.isText = true) (height bound : Nat) :
    d.Within height bound := by
  obtain ⟨s, rfl⟩ := Document.exists_text_of_isText h
  exact .text s

end Document

namespace Item

variable {height bound : Nat} {item : Item}

theorem within_toDocument (h : ∀ field ∈ item.fields, field.Within height bound) :
    item.toDocument.Within (height + 1) bound := by
  simp only [fields, List.forall_mem_cons] at h
  obtain ⟨hcontract, hlabel, htype, hsrc, -⟩ := h
  refine Document.within_record ?_
  simp only [List.forall_mem_cons]
  exact ⟨hcontract, hlabel, htype, hsrc, List.forall_mem_nil _⟩

end Item

namespace Layout

open Document

variable {height bound : Nat} {l original updated : Layout}

theorem Within.mono {height' bound' : Nat} (h : l.Within height bound) (hheight : height ≤ height')
    (hbound : bound ≤ bound') : l.Within height' bound' where
  fields item hitem field hfield := (h.fields item hitem field hfield).mono hheight hbound
  types entry hentry := (h.types entry hentry).imp_right fun hlabel => hlabel.mono hheight hbound

/-- A layout of texts besides the names of contracts is nested as they are. -/
theorem Named.within (h : l.Named fun name => name.Within height bound) : l.Within height bound where
  fields item hitem := List.forall_mem_cons.mpr ⟨h.contracts item hitem,
    fun field hfield => within_of_isText (h.items item hitem field hfield) height bound⟩
  types entry hentry :=
    (h.types entry hentry).imp_right fun hlabel => within_of_isText hlabel height bound

/-- **The document of a layout puts three lists and maps around what stands in it.** -/
theorem Within.toDocument (h : l.Within height bound) : l.toDocument.Within (height + 3) bound := by
  refine within_record ?_
  simp only [List.forall_mem_cons]
  refine ⟨within_row fun entry hentry => ?_, .map nofun (fun entry hentry => ?_) fun entry hentry => ?_,
    List.forall_mem_nil _⟩
  · obtain ⟨item, hitem, rfl⟩ := List.mem_map.mp hentry
    exact Item.within_toDocument (h.fields item hitem)
  · obtain ⟨origin, horigin, rfl⟩ := List.mem_map.mp hentry
    exact (h.types origin horigin).1
  · obtain ⟨origin, horigin, rfl⟩ := List.mem_map.mp hentry
    exact within_record (List.forall_mem_singleton.mpr (h.types origin horigin).2)

/-! ## Snapshots -/

theorem within_of_isItemOf {entry : Document} {item : Item} (h : entry.Within height bound)
    (hitem : IsItemOf entry item) : ∀ field ∈ item.fields, field.Within (height - 1) bound := by
  have hsrc := memberOr_eq_ok_iff.mpr ⟨isSome_table?_of_at? hitem.contract, hitem.src⟩
  simp only [Item.fields, List.forall_mem_cons]
  exact ⟨h.of_at? hitem.contract, h.of_at? hitem.label, h.of_at? hitem.type,
    h.of_memberOr (.text _) hsrc, List.forall_mem_nil _⟩

/-- The sections of a snapshot lie in it, and what stands in them one level deeper. -/
theorem HasSections.within {d : Document} {entries : List Document}
    {types : List (Document × Document)} (hsections : HasSections d entries types)
    (h : d.Within height bound) :
    (∀ entry ∈ entries, entry.Within (height - 1 - 1) bound)
      ∧ ∀ entry ∈ types, entry.1.isText = true ∧ entry.2.Within (height - 1 - 1) bound := by
  obtain ⟨⟨storage, hstorage, hentries⟩, described, hdescribed, htypes⟩ := hsections
  obtain ⟨⟨storageId, hlist⟩, -⟩ := storageEntries_eq_ok_iff.mp hentries
  obtain ⟨⟨typesId, hmap⟩, -⟩ := typeEntries_eq_ok_iff.mp htypes
  have helements : storage.elements = .ok entries := by
    rw [elements, hlist]
  have hkept : described.entries = .ok types := by
    rw [Document.entries, hmap]
  exact ⟨(h.of_at? hstorage).of_elements helements, (h.of_at? hdescribed).of_entries hkept⟩

/-- **What stands in a snapshot lies three levels deep in it.** -/
theorem within_ofDocument {d : Document} (h : d.Within height bound) (hl : ofDocument d = .ok l) :
    l.Within (height - 3) bound := by
  obtain ⟨entries, types, labels, hsections, hitems, hlabels, htable⟩ := ofDocument_eq_ok_iff.mp hl
  obtain ⟨hentries, htypes⟩ := hsections.within h
  refine ⟨fun item hitem => ?_, ?_⟩
  · obtain ⟨entry, hentry, hof⟩ := exists_mem_of_forall₂ hitems hitem
    exact within_of_isItemOf (hentries entry hentry) hof
  · rw [htable]
    refine of_mem_ofList fun labelled hlabelled => ?_
    obtain ⟨entry, hentry, hof⟩ := exists_mem_of_forall₂ hlabels hlabelled
    obtain ⟨hkey, hvalue⟩ := htypes entry hentry
    exact ⟨hof.key ▸ hkey, hvalue.of_at? hof.label⟩

/-! ## Comparing -/

theorem Within.labelOf (h : l.Within height bound) {item : Item} (hitem : item ∈ l.items) :
    (l.labelOf item).Within height bound := by
  obtain ⟨entry, hentry, hlabel⟩ := l.exists_entry_labelOf hitem
  exact hlabel ▸ (h.types entry hentry).2

theorem Within.label (h : l.Within height bound) {item : Item} (hitem : item ∈ l.items) :
    item.label.Within height bound :=
  h.fields item hitem _ (List.mem_cons_of_mem _ List.mem_cons_self)

theorem Within.src (h : l.Within height bound) {item : Item} (hitem : item ∈ l.items) :
    item.src.Within height bound :=
  h.fields item hitem _ (by simp [Item.fields])

/-- **Layouts within bounds are compared.** -/
theorem Within.mustCompare_eq_ok [NestingLimits] (h : original.Within height bound)
    (hheight : height < NestingLimits.comparing) (updated : Layout) :
    Upgrade.mustCompare original updated = .ok () := by
  refine if_pos (List.all_eq_true.mpr fun o ho => List.all_eq_true.mpr fun u _ => ?_)
  rw [comparesWithin_of_within (h.label ho) hheight, comparesWithin_of_within (h.labelOf ho) hheight]
  rfl

end Layout

/-! ## Names of contracts -/

namespace Compilation

variable {height bound : Nat} {output : Document} {defs : List (Document × Document)}

theorem within_of_definitionsOf {path source : Document} (h : source.Within height bound)
    (hheight : 3 ≤ height) (hdefs : definitionsOf path source = .ok defs) :
    ∀ found ∈ defs, found.2.Within (height - 3) bound := by
  obtain ⟨given, nodes, items, hgiven, hnodes, hitems, hdefs⟩ := of_mem_definitionsOf hdefs
  have hgiven := h.of_memberOr .null hgiven
  have htree : (if given.isSet then given else Document.record []).Within (height - 1) bound := by
    split
    · exact hgiven
    · exact Document.within_record_nil (by omega)
  have hnodes := htree.of_memberOr (Document.within_row_nil (by omega)) hnodes
  exact fun found hfound => hnodes.of_elements hitems _ (hdefs found hfound).2

/-- **A contract definition lies five levels deep in the output of a compilation.** -/
theorem within_of_definitions (h : output.Within height bound) (hheight : 5 ≤ height)
    (hdefs : definitions output = .ok defs) : ∀ found ∈ defs, found.2.Within (height - 5) bound := by
  intro found hfound
  obtain ⟨sources, hsources, hdefs⟩ := bind_eq_ok_iff.mp hdefs
  obtain ⟨entries, hentries, hdefs⟩ := bind_eq_ok_iff.mp hdefs
  obtain ⟨source, hsource, own, hown, hfound⟩ := exists_of_mem_definitionsIn hdefs found hfound
  have hsources := h.of_memberOr (Document.within_record_nil (by omega)) hsources
  have hsource := (hsources.of_entries hentries source hsource).2
  exact within_of_definitionsOf hsource (by omega) hown found hfound

theorem namedBy_of_definitions (h : output.Within height bound) (hheight : 5 ≤ height)
    (hdefs : definitions output = .ok defs) :
    NamedBy (fun name => name.Within (height - 6) bound) defs :=
  fun found hfound _ hname => (within_of_definitions h hheight hdefs found hfound).of_member hname

end Compilation

/-! ## Reports -/

namespace Report

open Upgrade

variable {height bound : Nat} {original updated : Layout}

theorem describable_of_within [NestingLimits] {l : Layout} (h : l.Within height bound)
    (hheight : height ≤ NestingLimits.showing) {item : Item} (hitem : item ∈ l.items) :
    Describable l item where
  label := Document.canBeShown_of_within (h.label hitem) hheight
  type := Document.canBeShown_of_within (h.labelOf hitem) hheight
  src := Document.canBeShown_of_within (h.src hitem) hheight

/-- **What becomes of layouts within bounds is told.** -/
theorem exists_operationsText_of_within [NestingLimits] (horiginal : original.Within height bound)
    (hupdated : updated.Within height bound) (hheight : height ≤ NestingLimits.showing) :
    ∃ text, operationsText original updated (operations original updated) = .ok text := by
  have hspeaks := speaks_of_subset (List.Subset.refl (operations original updated))
  refine (exists_operationsText_iff hspeaks).mpr fun c hc => ⟨fun o ho => ?_, fun u hu => ?_⟩
  · exact describable_of_within horiginal hheight ((hspeaks c hc).original o ho)
  · exact describable_of_within hupdated hheight ((hspeaks c hc).updated u hu)

/-- **The document of the operations puts three lists and maps around what stands in items.** -/
theorem within_operationsDocument (horiginal : original.Within height bound)
    (hupdated : updated.Within height bound) :
    (operationsDocument (operations original updated)).Within (height + 3) bound := by
  refine Document.within_row fun entry hentry => ?_
  obtain ⟨c, hc, rfl⟩ := List.mem_map.mp hentry
  have hspeaks := speaks_of_mem_operations hc
  refine Document.within_record ?_
  simp only [List.forall_mem_cons]
  refine ⟨.text _, ?_, ?_, List.forall_mem_nil _⟩
  · cases horiginal' : c.original with
    | none => exact .null
    | some o => exact Item.within_toDocument (horiginal.fields o (hspeaks.original o horiginal'))
  · cases hupdated' : c.updated with
    | none => exact .null
    | some u => exact Item.within_toDocument (hupdated.fields u (hspeaks.updated u hupdated'))

/-- **An unsafe change says what stands in items**, or that nothing is known. -/
theorem of_mem_errors {P Q : Document → Prop} (hsrc : P (.text "unknown")) (hlabel : Q (.text "unknown"))
    (horiginal : ∀ item ∈ original.items, P item.src ∧ Q item.label)
    (hupdated : ∀ item ∈ updated.items, P item.src ∧ Q item.label) {e : UpgradeError}
    (he : e ∈ errors original updated) : P e.location ∧ Q e.label := by
  obtain ⟨c, hc, rfl⟩ := List.mem_map.mp he
  have hspeaks := speaks_of_mem_operations (List.mem_of_mem_filter hc)
  unfold report
  cases hafter : c.updated with
  | some u => exact hupdated u (hspeaks.updated u hafter)
  | none =>
    cases hbefore : c.original with
    | some o => exact horiginal o (hspeaks.original o hbefore)
    | none => exact ⟨hsrc, hlabel⟩

theorem within_of_mem_errors (horiginal : original.Within height bound)
    (hupdated : updated.Within height bound) {e : UpgradeError} (he : e ∈ errors original updated) :
    e.location.Within height bound ∧ e.label.Within height bound :=
  of_mem_errors (P := (·.Within height bound)) (Q := (·.Within height bound)) (.text _) (.text _)
    (fun _ hitem => ⟨horiginal.src hitem, horiginal.label hitem⟩)
    (fun _ hitem => ⟨hupdated.src hitem, hupdated.label hitem⟩) he

/-- **The document of a check puts three lists and maps around what stands in items.** -/
theorem within_checkDocument (horiginal : original.Within height bound)
    (hupdated : updated.Within height bound) :
    (checkDocument (errors original updated)).Within (height + 3) bound := by
  refine Document.within_record ?_
  simp only [List.forall_mem_cons]
  refine ⟨.bool _, Document.within_row fun entry hentry => ?_, List.forall_mem_nil _⟩
  obtain ⟨e, he, rfl⟩ := List.mem_map.mp hentry
  obtain ⟨hlocation, hlabel⟩ := within_of_mem_errors horiginal hupdated he
  refine Document.within_record ?_
  simp only [List.forall_mem_cons]
  exact ⟨hlocation, .text _, hlabel, List.forall_mem_nil _⟩

theorem exists_paragraphs [NestingLimits] {bold : Bool} {errors : List UpgradeError}
    (h : ∀ e ∈ errors, (∃ place, e.location.shown = .ok place) ∧ ∃ label, e.label.shown = .ok label)
    (hbold : bold = false → ∀ e ∈ errors, e.location.isText = true) :
    ∃ texts, paragraphs bold errors = .ok texts := by
  induction errors with
  | nil => exact ⟨[], rfl⟩
  | cons e rest ih =>
    obtain ⟨⟨⟨place, hplace⟩, label, hlabel⟩, hrest⟩ := List.forall_mem_cons.mp h
    obtain ⟨others, hothers⟩ := ih hrest fun hplain =>
      fun e he => hbold hplain e (List.mem_cons_of_mem _ he)
    have htail : ∃ rest, tail e = .ok rest := by
      unfold tail UpgradeError.tail
      unfold Document.shown at hlabel
      cases hdisplay : e.label.display with
      | error obstacle =>
        rw [hdisplay] at hlabel
        cases hlabel
      | ok label => exact ⟨_, rfl⟩
    obtain ⟨said, hsaid⟩ := htail
    have hfirst : ∃ first, paragraph bold e = .ok first := by
      cases bold with
      | true =>
        exact ⟨_, bind_eq_ok_iff.mpr ⟨place, hplace, bind_eq_ok_iff.mpr ⟨said, hsaid, rfl⟩⟩⟩
      | false =>
        obtain ⟨src, hsrc⟩ :=
          Document.exists_text_of_isText (hbold rfl e List.mem_cons_self)
        refine ⟨src ++ said, bind_eq_ok_iff.mpr ⟨said, hsaid, ?_⟩⟩
        rw [hsrc]
    obtain ⟨first, hfirst⟩ := hfirst
    exact ⟨_, bind_eq_ok_iff.mpr ⟨first, hfirst, bind_eq_ok_iff.mpr ⟨others, hothers, rfl⟩⟩⟩

/-- **Unsafe changes between layouts within bounds are told**, without bold letters if their places
are texts. -/
theorem exists_errorText_of_within [NestingLimits] (horiginal : original.Within height bound)
    (hupdated : updated.Within height bound) (hheight : height ≤ NestingLimits.showing) {bold : Bool}
    (hbold : bold = false → (∀ item ∈ original.items, item.src.isText = true)
      ∧ ∀ item ∈ updated.items, item.src.isText = true) :
    ∃ text, errorText bold (errors original updated) = .ok text := by
  have hshown : ∀ e ∈ errors original updated,
      (∃ place, e.location.shown = .ok place) ∧ ∃ label, e.label.shown = .ok label := by
    intro e he
    obtain ⟨hlocation, hlabel⟩ := within_of_mem_errors horiginal hupdated he
    exact ⟨Document.canBeShown_of_within hlocation hheight, Document.canBeShown_of_within hlabel hheight⟩
  obtain ⟨texts, htexts⟩ := exists_paragraphs hshown fun hplain e he => by
    obtain ⟨hbefore, hafter⟩ := hbold hplain
    exact (of_mem_errors (P := (·.isText = true)) (Q := fun _ => True) rfl trivial
      (fun item hitem => ⟨hbefore item hitem, trivial⟩)
      (fun item hitem => ⟨hafter item hitem, trivial⟩) he).1
  exact ⟨_, bind_eq_ok_iff.mpr ⟨texts, htexts, rfl⟩⟩

end Report

end SlotSafe
