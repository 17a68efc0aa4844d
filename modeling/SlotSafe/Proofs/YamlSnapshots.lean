import SlotSafe.Proofs.Snapshots
import SlotSafe.Proofs.YamlRoundTrip

/-!
# A layout saved as YAML is loaded again

A layout whose texts are printable ASCII is saved as YAML completely, and what is loaded from the
file is that layout, with its items and types in their order (`snapshot_of_write_yaml`). Nothing
else is asked of the texts: they may be empty, read like a number, a date or a merge key, hold signs
and quotes, start and end with blanks, and be longer than a line.

The way is that of a layout saved as JSON. Only its middle differs: what is written as YAML is read
as the document by `Yaml.exists_render`, where JSON has `Json.exists_render`.
-/

namespace SlotSafe

/-! ## Layouts of printable texts -/

/-- Whether a document is a text of printable ASCII. -/
def Document.isPrintable : Document → Bool
  | .text s => s.toList.all Yaml.isPlainChar
  | _ => false

/-- **A layout of printable texts**: every field of an item is a text of printable ASCII, and the
types are distinct texts of that kind, each with such a text as its label. -/
structure Layout.OfPrintable (l : Layout) : Prop where
  items : ∀ item ∈ l.items, ∀ field ∈ item.fields, field.isPrintable = true
  types : ∀ entry ∈ l.types.entries, entry.1.isPrintable = true ∧ entry.2.isPrintable = true
  distinct : Table.DistinctKeys l.types.keys

namespace Layout

open Document

theorem isPrintable_text {s : String} : (Document.text s).isPrintable = true ↔ Yaml.IsPrintable s :=
  List.all_eq_true

theorem isText_of_isPrintable {d : Document} (h : d.isPrintable = true) : d.isText = true := by
  cases d
  all_goals first
    | rfl
    | exact absurd h Bool.false_ne_true

variable {l : Layout}

theorem OfPrintable.ofTexts (h : l.OfPrintable) : l.OfTexts where
  items item hitem field hfield := isText_of_isPrintable (h.items item hitem field hfield)
  types entry hentry := (h.types entry hentry).imp isText_of_isPrintable isText_of_isPrintable
  distinct := h.distinct

/-- The document of an item is one of printable texts. -/
theorem ofPrintable_item {item : Item} (h : ∀ field ∈ item.fields, field.isPrintable = true) :
    Yaml.OfPrintable 1 item.toDocument := by
  obtain ⟨contract, label, type, src, rfl⟩ := exists_texts_of_item fun field hfield =>
    isText_of_isPrintable (h field hfield)
  simp only [Item.fields, List.forall_mem_cons, isPrintable_text] at h
  refine .record (by simp) ?_ ?_
  · simp only [List.forall_mem_cons]
    exact ⟨by decide, by decide, by decide, by decide, List.forall_mem_nil _⟩
  · simp only [List.forall_mem_cons]
    exact ⟨.text h.1, .text h.2.1, .text h.2.2.1, .text h.2.2.2.1, List.forall_mem_nil _⟩

/-- **The document of such a layout is one of printable texts**, of height three. -/
theorem OfPrintable.toDocument (h : l.OfPrintable) : Yaml.OfPrintable 3 l.toDocument := by
  obtain ⟨labels, hdistinct, htypes⟩ := h.ofTexts.exists_types
  have hprintable : ∀ label ∈ labels, Yaml.IsPrintable label.1 ∧ Yaml.IsPrintable label.2 := by
    intro label hlabel
    have hentry := h.types (.text label.1, .text label.2)
      (htypes ▸ List.mem_map.mpr ⟨label, hlabel, rfl⟩)
    exact hentry.imp isPrintable_text.mp isPrintable_text.mp
  have htable : (.map none (l.types.mapValues fun label => .record [("label", label)]).entries)
      = Document.record (labels.map fun entry => (entry.1, .record [("label", .text entry.2)])) := by
    simp [Table.mapValues, htypes, Document.record]
  rw [Layout.toDocument, htable]
  refine .record (by simp) ?_ ?_
  · simp only [List.forall_mem_cons]
    exact ⟨by decide, by decide, List.forall_mem_nil _⟩
  · simp only [List.forall_mem_cons]
    refine ⟨.row fun entry hentry => ?_, .record ?_ (fun entry hentry => ?_) fun entry hentry => ?_,
      List.forall_mem_nil _⟩
    · obtain ⟨item, hitem, rfl⟩ := List.mem_map.mp hentry
      exact ofPrintable_item (h.items item hitem)
    · rw [List.map_map]
      exact hdistinct
    · obtain ⟨label, hlabel, rfl⟩ := List.mem_map.mp hentry
      exact (hprintable label hlabel).1
    · obtain ⟨label, hlabel, rfl⟩ := List.mem_map.mp hentry
      refine .record (by simp) ?_ ?_
      · simp only [List.forall_mem_cons]
        exact ⟨by decide, List.forall_mem_nil _⟩
      · simp only [List.forall_mem_cons]
        exact ⟨.text (hprintable label hlabel).2, List.forall_mem_nil _⟩

end Layout

/-! ## The file -/

namespace Directory

/-- A file is read as YAML as it was written, if it holds lines of printable ASCII. -/
theorem documentIn_yaml_of_plain [NestingLimits] {d : Directory} {path : String} {chars : List Char}
    (hcontent : d.content path = .ok (.text chars)) (hplain : Yaml.Lexer.IsPlainText chars)
    (reading : Nat) :
    d.documentIn reading .yaml path
      = (Yaml.read reading chars none).mapError DataFormat.yamlFault := by
  have hreturn : '\r' ∉ chars := fun hmem => absurd (hplain _ hmem) (by decide)
  unfold documentIn
  rw [hcontent]
  show DataFormat.read .yaml reading (Text.unifyLineEnds chars) none = _
  rw [Text.unifyLineEnds_of_not_mem hreturn]
  rfl

/-- **A layout that is saved as YAML is what is loaded from the file**, whose name ends like that of
a YAML file. -/
theorem snapshot_of_write_yaml [NestingLimits] {l : Layout} (hl : l.OfPrintable) {path : String}
    (hpath : Text.lower (String.ofList (DataFormat.extension path)) ∈ DataFormat.yamlExtensions)
    {d d' : Directory} (hwrite : d.write path (DataFormat.yaml.write l.toDocument).chars = .ok d')
    (reading : Nat) :
    (DataFormat.yaml.write l.toDocument).complete = true ∧ d'.snapshot reading path = .ok l := by
  have hwriting : 3 ≤ NestingLimits.writing .yaml :=
    Nat.le_trans (by decide) (NestingLimits.eight_le_writing .yaml)
  have hreading : 3 < NestingLimits.reading .yaml :=
    Nat.lt_of_lt_of_le (by decide) (NestingLimits.eight_le_reading .yaml)
  obtain ⟨chars, hrender, hplain, hreads⟩ :=
    Yaml.exists_render hl.toDocument rfl hwriting hreading
  have hyaml : DataFormat.yaml.write l.toDocument = .say chars := hrender
  rw [hyaml, Writing.chars_say] at hwrite
  rw [hyaml]
  have hcontent := content_of_write hwrite
  obtain ⟨found, hback, hread⟩ := hreads reading
  obtain ⟨hmap, hlayout⟩ := Layout.ofDocument_of_comesBackAs hl.ofTexts hback
  have hformat : DataFormat.ofPath path = .yaml := if_pos (List.contains_iff_mem.mpr hpath)
  have hdocument : d'.document reading path = .ok found := by
    unfold document
    rw [if_pos (exists?_of_content hcontent), hformat, documentIn_yaml_of_plain hcontent hplain,
      hread]
    rfl
  refine ⟨rfl, ?_⟩
  unfold snapshot
  rw [hdocument]
  show (if found.isMap then Layout.ofDocument found else _) = _
  rw [if_pos hmap, hlayout]

/-- A type key that is too long for a line, and for a key on one line. -/
def longKey : String :=
  "t_mapping(t_address, t_mapping(t_uint256, t_mapping(t_bytes32, t_array(t_struct(Position)storage)"
    ++ "dyn_storage)))  of all positions, by their owners"

/-- A layout whose texts would be read as something else without quotes, or have to be folded. -/
def awkwardLayout : Layout where
  items := [⟨.text "", .text "<<", .text "null", .text "- a: b # c"⟩,
    ⟨.text " outer ", .text "'it''s' \"so\"", .text "0x1F", .text "2001-12-31"⟩,
    ⟨.text "---", .text "[x, y]", .text longKey, .text "&a *b !c |d >e %f @g \x60h"⟩]
  types := ⟨[(.text "null", .text "~"), (.text "0x1F", .text "1_000"),
    (.text longKey, .text longKey), (.text "yes", .text "no")]⟩
  closed := by simp [Table.contains]

theorem leadsTo_layouts_yaml : LeadsTo layoutsDirectory "layouts/v1.Yml" ["layouts", "v1.Yml"] where
  noNull := by simp
  length := by decide
  place := ⟨["layouts"], "v1.Yml", ["layouts"], by decide, rfl, ⟨by decide, by decide, by decide⟩,
    rfl⟩

theorem snapshot_awkwardLayout :
    (DataFormat.yaml.write awkwardLayout.toDocument).complete = true
      ∧ (layoutsDirectory.put ["layouts", "v1.Yml"]
          (.file (.text (DataFormat.yaml.write awkwardLayout.toDocument).chars))).snapshot 1
        "layouts/v1.Yml" = .ok awkwardLayout :=
  have hplace : layoutsDirectory.placeFor "layouts/v1.Yml" = .ok ["layouts", "v1.Yml"] :=
    placeFor_eq_ok_iff.mpr ⟨leadsTo_layouts_yaml, by decide⟩
  snapshot_of_write_yaml ⟨by decide +kernel, by decide +kernel, by decide +kernel⟩
    (by decide +kernel) (write_eq_ok_iff.mpr ⟨_, hplace, rfl⟩) 1

end Directory

end SlotSafe
