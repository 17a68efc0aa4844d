import Mathlib.Data.List.Infix
import Mathlib.Data.List.TakeWhile
import SlotSafe.Proofs.Declarations
import SlotSafe.Proofs.Files
import SlotSafe.Proofs.JsonRoundTrip

/-!
# A saved layout is loaded again

A layout that consists of texts alone is saved as JSON completely, and what is loaded from the file
is that layout, with its items and types in their order (`snapshot_of_write_json`).

Each part of the way has its own reason. The document of such a layout is one of texts, of height
three, so it comes back from what is written of it. What is written is plain ASCII, so the file is
read as it was written, with no line end to unify and no mark in front. The file tells by its name
that it holds JSON. And the checks that a snapshot must pass ask for the members that the document
of a layout has, and for a label of each type key, which every layout has.
-/

namespace SlotSafe

/-! ## Names of files -/

namespace DataFormat

/-- **A path that ends like the name of a YAML file**, in any letter case. -/
def EndsAsYaml (path : String) : Prop :=
  ∃ ending, ending <:+ path.toList ∧ Text.lower (String.ofList ending) ∈ yamlExtensions

instance : DecidablePred EndsAsYaml := fun path =>
  decidable_of_iff (∃ ending ∈ path.toList.tails, Text.lower (String.ofList ending) ∈ yamlExtensions)
    (by simp only [List.mem_tails]; rfl)

/-- The extension of a path is where it ends. -/
theorem extension_suffix (path : String) : extension path <:+ path.toList := by
  have hrest : ∀ (p : Char → Bool) (s : List Char), (s.reverse.takeWhile p).reverse <:+ s := by
    intro p s
    rw [← List.reverse_prefix, List.reverse_reverse]
    exact List.takeWhile_prefix p
  unfold extension
  simp only
  generalize hbase : ((path.toList.reverse.takeWhile (· != '/')).reverse.dropWhile (· == '.')) = base
  have hsuffix : base <:+ path.toList :=
    hbase ▸ (List.dropWhile_suffix _).trans (hrest _ _)
  split
  · next hpoint =>
    refine List.IsSuffix.trans ?_ hsuffix
    -- before what follows the last point stands a point
    have hsplit := List.takeWhile_append_dropWhile (p := (· != '.')) (l := base.reverse)
    cases hdrop : base.reverse.dropWhile (· != '.') with
    | nil =>
      rw [List.dropWhile_eq_nil_iff] at hdrop
      have hmem := hdrop '.' (List.mem_reverse.mpr (List.contains_iff_mem.mp hpoint))
      exact absurd hmem (by decide)
    | cons c before =>
      have hc : c = '.' := by
        have hhead := List.head?_dropWhile_not (· != '.') base.reverse
        rw [hdrop] at hhead
        simpa using hhead
      rw [hdrop, hc] at hsplit
      rw [← List.reverse_prefix, List.reverse_cons, List.reverse_reverse]
      exact ⟨before, by rw [List.append_assoc]; exact hsplit⟩
  · exact List.nil_suffix

theorem ofPath_eq_json {path : String} (h : ¬EndsAsYaml path) : ofPath path = .json := by
  unfold ofPath
  exact if_neg fun hyaml =>
    h ⟨extension path, extension_suffix path, List.contains_iff_mem.mp hyaml⟩

end DataFormat

/-! ## The document of a layout -/

/-- **A layout of texts**: every field of an item is a text, and the types are distinct texts, each
with a text as its label. -/
structure Layout.OfTexts (l : Layout) : Prop where
  items : ∀ item ∈ l.items, ∀ field ∈ item.fields, field.isText = true
  types : ∀ entry ∈ l.types.entries, entry.1.isText = true ∧ entry.2.isText = true
  distinct : Table.DistinctKeys l.types.keys

namespace Layout

open Document

theorem exists_texts_of_item {item : Item} (h : ∀ field ∈ item.fields, field.isText = true) :
    ∃ contract label type src, item = ⟨.text contract, .text label, .text type, .text src⟩ := by
  obtain ⟨contract, label, type, src⟩ := item
  simp only [Item.fields, List.forall_mem_cons] at h
  obtain ⟨contract, rfl⟩ := exists_text_of_isText h.1
  obtain ⟨label, rfl⟩ := exists_text_of_isText h.2.1
  obtain ⟨type, rfl⟩ := exists_text_of_isText h.2.2.1
  obtain ⟨src, rfl⟩ := exists_text_of_isText h.2.2.2.1
  exact ⟨_, _, _, _, rfl⟩

/-- A table of texts is known by their characters. -/
theorem exists_labels {entries : List (Document × Document)}
    (h : ∀ entry ∈ entries, entry.1.isText = true ∧ entry.2.isText = true) :
    ∃ labels : List (String × String),
      entries = labels.map fun entry => (.text entry.1, .text entry.2) := by
  induction entries with
  | nil => exact ⟨[], rfl⟩
  | cons entry rest ih =>
    obtain ⟨key, label⟩ := entry
    obtain ⟨hentry, hrest⟩ := List.forall_mem_cons.mp h
    obtain ⟨key, rfl⟩ := exists_text_of_isText hentry.1
    obtain ⟨label, rfl⟩ := exists_text_of_isText hentry.2
    obtain ⟨labels, rfl⟩ := ih hrest
    exact ⟨(key, label) :: labels, rfl⟩

variable {l : Layout}

theorem OfTexts.exists_types (h : l.OfTexts) :
    ∃ labels : List (String × String), (labels.map (·.1)).Nodup
      ∧ l.types.entries = labels.map fun entry => (.text entry.1, .text entry.2) := by
  obtain ⟨labels, hlabels⟩ := exists_labels h.types
  refine ⟨labels, Table.distinctKeys_text_iff.mp ?_, hlabels⟩
  have hdistinct := h.distinct
  rw [Table.keys, hlabels, List.map_map] at hdistinct
  rwa [List.map_map]

theorem OfTexts.toDocument (h : l.OfTexts) : Document.OfTexts 3 l.toDocument := by
  obtain ⟨labels, hdistinct, htypes⟩ := h.exists_types
  have htable : (.map none (l.types.mapValues fun label => .record [("label", label)]).entries)
      = Document.record (labels.map fun entry => (entry.1, .record [("label", .text entry.2)])) := by
    simp [Table.mapValues, htypes, Document.record]
  rw [Layout.toDocument, htable]
  refine .record (by simp) ?_
  simp only [List.forall_mem_cons]
  refine ⟨.row fun entry hentry => ?_, .record ?_ fun entry hentry => ?_, List.forall_mem_nil _⟩
  · obtain ⟨item, hitem, rfl⟩ := List.mem_map.mp hentry
    obtain ⟨contract, label, type, src, rfl⟩ := exists_texts_of_item (h.items item hitem)
    refine .record (by simp) ?_
    simp only [List.forall_mem_cons]
    exact ⟨.text _, .text _, .text _, .text _, List.forall_mem_nil _⟩
  · rw [List.map_map]
    exact hdistinct
  · obtain ⟨label, -, rfl⟩ := List.mem_map.mp hentry
    refine .record (by simp) ?_
    simp only [List.forall_mem_cons]
    exact ⟨.text _, List.forall_mem_nil _⟩

/-! ## Reading it -/

theorem required_map (id : Option Identity) (entries : List (Document × Document)) (name : String) :
    required (.map id entries) name
      = match Table.find? ⟨entries⟩ (.text name) with
        | some value => .ok value
        | none => .error (.malformed (.missingMember name)) := by
  simp only [required, Document.member, table?, unrolled]
  cases Table.find? ⟨entries⟩ (.text name) <;> rfl

/-- **An item comes back from its document.** -/
theorem readItem_of_comesBackAs {item : Item} {found : Document}
    (h : ∀ field ∈ item.fields, field.isText = true) (hback : ComesBackAs item.toDocument found) :
    found.isMap = true ∧ readItem found = .ok item := by
  obtain ⟨contract, label, type, src, rfl⟩ := exists_texts_of_item h
  unfold Item.toDocument Document.record at hback
  cases hback with
  | map id parts =>
    obtain _ | ⟨⟨_, hcontract⟩, parts⟩ := parts
    obtain _ | ⟨⟨_, hlabel⟩, parts⟩ := parts
    obtain _ | ⟨⟨_, htype⟩, parts⟩ := parts
    obtain _ | ⟨⟨_, hsrc⟩, parts⟩ := parts
    cases parts
    cases hcontract
    cases hlabel
    cases htype
    cases hsrc
    refine ⟨rfl, ?_⟩
    simp [readItem, required_map, memberOr, Table.find?_cons, bind, Except.bind, Except.map]

/-- The items come back. -/
theorem readItems_of_comesBackAs {items : List Item} {found : List Document}
    (h : ∀ item ∈ items, ∀ field ∈ item.fields, field.isText = true)
    (hback : List.Forall₂ ComesBackAs (items.map Item.toDocument) found) :
    found.all Document.isMap = true ∧ readItems found = .ok items := by
  induction items generalizing found with
  | nil =>
    cases hback
    exact ⟨rfl, rfl⟩
  | cons item rest ih =>
    obtain _ | ⟨hfirst, hrest⟩ := hback
    rw [List.forall_mem_cons] at h
    obtain ⟨hmap, hitem⟩ := readItem_of_comesBackAs h.1 hfirst
    obtain ⟨hmaps, hitems⟩ := ih h.2 hrest
    refine ⟨by rw [List.all_cons, hmap, hmaps]; rfl, ?_⟩
    rw [readItems, hitem]
    simp only [bind, Except.bind, hitems]

/-- The types come back. -/
theorem readTypes_of_comesBackAs {labels : List (String × String)} {found : List (Document × Document)}
    (hback : List.Forall₂ EntryComesBackAs
      (labels.map fun entry => (.text entry.1, .record [("label", .text entry.2)])) found) :
    found.all (fun entry => entry.2.isMap) = true
      ∧ readTypes found = .ok (labels.map fun entry => (.text entry.1, .text entry.2)) := by
  induction labels generalizing found with
  | nil =>
    cases hback
    exact ⟨rfl, rfl⟩
  | cons label rest ih =>
    obtain _ | ⟨⟨_, hfirst⟩, hrest⟩ := hback
    unfold Document.record at hfirst
    obtain _ | _ | ⟨id, parts⟩ := hfirst
    obtain _ | ⟨⟨_, hlabel⟩, parts⟩ := parts
    cases parts
    cases hlabel
    obtain ⟨hmaps, htypes⟩ := ih hrest
    refine ⟨by rw [List.all_cons, hmaps]; rfl, ?_⟩
    rw [readTypes, required_map]
    simp [Table.find?_cons, bind, Except.bind, htypes]

/-- **A layout comes back from its document.** -/
theorem ofDocument_of_comesBackAs {found : Document} (h : l.OfTexts)
    (hback : ComesBackAs l.toDocument found) : found.isMap = true ∧ ofDocument found = .ok l := by
  obtain ⟨labels, -, htypes⟩ := h.exists_types
  unfold Layout.toDocument Document.record Document.row Table.mapValues at hback
  rw [htypes, List.map_map] at hback
  obtain _ | _ | ⟨id, parts⟩ := hback
  obtain _ | ⟨⟨_, hstorage⟩, parts⟩ := parts
  obtain _ | ⟨⟨_, hlabels⟩, parts⟩ := parts
  cases parts
  obtain _ | ⟨_, hitems⟩ := hstorage
  obtain _ | _ | ⟨_, hentries⟩ := hlabels
  obtain ⟨hmaps, hitems⟩ := readItems_of_comesBackAs h.items hitems
  obtain ⟨htypemaps, hlabels⟩ := readTypes_of_comesBackAs hentries
  have htable : Table.ofList l.types.entries = l.types := Table.ofList_of_distinctKeys h.distinct
  refine ⟨rfl, ?_⟩
  unfold ofDocument
  simp only [bind_eq_ok_iff, required_map, Table.find?_cons, sameKey_text]
  refine ⟨_, rfl, _, rfl, _, if_pos hmaps, _, if_pos htypemaps, _, hitems, _, hlabels, ?_⟩
  rw [← htypes, htable]
  exact dif_pos l.closed

end Layout

/-! ## The file -/

namespace Directory

theorem documentIn_json_of_plain [NestingLimits] {d : Directory} {path : String} {chars : List Char}
    (hcontent : d.content path = .ok (.text chars)) (hplain : ∀ c ∈ chars, Json.IsPlain c)
    (reading : Nat) :
    d.documentIn reading .json path = (Json.read reading chars).mapError .json := by
  have hreturn : '\r' ∉ chars := fun hmem => absurd (hplain _ hmem) (by decide)
  unfold documentIn
  rw [hcontent]
  show DataFormat.read .json reading (Text.unifyLineEnds chars) none = _
  rw [Text.unifyLineEnds_of_not_mem hreturn]
  rfl

/-- **The document that a saved layout comes back as**: the layout in it is the one that was saved,
and every reading finds it. -/
theorem exists_document_of_write [NestingLimits] {l : Layout} (hl : l.OfTexts) {path : String}
    (hpath : ¬DataFormat.EndsAsYaml path) {d d' : Directory}
    (hwrite : d.write path (DataFormat.json.write l.toDocument).chars = .ok d') (reading : Nat) :
    (DataFormat.json.write l.toDocument).complete = true
      ∧ ∃ found, Document.ComesBackAs l.toDocument found
        ∧ d'.document reading path = .ok found := by
  obtain ⟨chars, hrender, hplain, hreads⟩ := Json.exists_render hl.toDocument
    (Nat.le_trans (by decide) Json.eight_le_room)
  have hjson : DataFormat.json.write l.toDocument = .say chars := hrender
  rw [hjson] at hwrite ⊢
  have hcontent := content_of_write hwrite
  obtain ⟨found, hback, hread⟩ := hreads reading
  refine ⟨rfl, found, hback, ?_⟩
  unfold document
  rw [if_pos (exists?_of_content hcontent), DataFormat.ofPath_eq_json hpath,
    documentIn_json_of_plain hcontent hplain, Writing.chars_say, hread]
  rfl

/-- **A layout that is saved as JSON is what is loaded from the file.** -/
theorem snapshot_of_write_json [NestingLimits] {l : Layout} (hl : l.OfTexts) {path : String}
    (hpath : ¬DataFormat.EndsAsYaml path) {d d' : Directory}
    (hwrite : d.write path (DataFormat.json.write l.toDocument).chars = .ok d') (reading : Nat) :
    (DataFormat.json.write l.toDocument).complete = true ∧ d'.snapshot reading path = .ok l := by
  obtain ⟨hcomplete, found, hback, hfound⟩ := exists_document_of_write hl hpath hwrite reading
  obtain ⟨hmap, hlayout⟩ := Layout.ofDocument_of_comesBackAs hl hback
  refine ⟨hcomplete, ?_⟩
  unfold snapshot
  rw [hfound]
  show (if found.isMap then Layout.ofDocument found else _) = _
  rw [if_pos hmap, hlayout]

/-- A layout whose texts need every kind of escape, with a type that no variable has. -/
def escapedLayout : Layout where
  items := [⟨.text "Vault \"v1\"", .text "owner\\\t", .text "t_address", .text "a.sol:\x07:\r\n"⟩,
    ⟨.text "Vault \"v1\"", .text "naïve\x7f", .text "t_😀", .text ""⟩]
  types := ⟨[(.text "t_address", .text "address"), (.text "t_unused", .text "/\x08\x0c"),
    (.text "t_😀", .text "smile 😀")]⟩
  closed := by simp [Table.contains]

/-- A directory for layouts. -/
def layoutsDirectory : Directory := ⟨[(["layouts"], .directory)]⟩

theorem leadsTo_layouts : LeadsTo layoutsDirectory "layouts/v1.yaml.json" ["layouts", "v1.yaml.json"]
    where
  noNull := by simp
  length := by decide
  place := ⟨["layouts"], "v1.yaml.json", ["layouts"], by decide, rfl,
    ⟨by decide, by decide, by decide⟩, rfl⟩

theorem snapshot_escapedLayout :
    (DataFormat.json.write escapedLayout.toDocument).complete = true
      ∧ (layoutsDirectory.put ["layouts", "v1.yaml.json"]
          (.file (.text (DataFormat.json.write escapedLayout.toDocument).chars))).snapshot 1
        "layouts/v1.yaml.json" = .ok escapedLayout :=
  have hplace : layoutsDirectory.placeFor "layouts/v1.yaml.json" = .ok ["layouts", "v1.yaml.json"] :=
    placeFor_eq_ok_iff.mpr ⟨leadsTo_layouts, by decide⟩
  snapshot_of_write_json ⟨by decide, by decide, by decide⟩ (by decide +kernel)
    (write_eq_ok_iff.mpr ⟨_, hplace, rfl⟩) 1

end Directory

end SlotSafe
