import SlotSafe.CommandLine.Run
import SlotSafe.Proofs.ContractLookup
import SlotSafe.Proofs.DirectLayouts
import SlotSafe.Proofs.FullLayouts
import SlotSafe.Proofs.NestedLayouts
import SlotSafe.Proofs.SnapshotSections

/-!
# Input of the expected kinds

Little is checked of the kinds of documents on the way from a file to a layout. What is asked for a
member must be a map, what is run through must be a list, and what is looked up must be a key. A
snapshot is checked for all of that but its type keys, which must be texts (`Layout.isSnapshot`). Of a
compilation nothing is checked; a compiler writes what is needed, and `Compilation.isOutput` and
`Compilation.isInput` tell whether it is there. They follow the way of the extraction: from the
sources to the contracts at the top of their trees, and from each contract to its nodes.

**Where the kinds are right a layout is read or extracted, or that fails in expected ways**
(`Layout.ofDocument_failsOnly`, `Compilation.layout_failsOnly`): a snapshot lacks something, a contract
is not found or is not the only one, a base is unknown, a variable has no name or no type, or a source
reference cannot be read.
-/

namespace SlotSafe

/-- A fault that is expected. -/
def Fault.Expected (fault : Fault) : Prop := fault.isExpected = true

/-- A fault of input without the shape that a compiler or a snapshot gives it. -/
def Fault.IsMalformed (fault : Fault) : Prop := ∃ cause, fault = .malformed cause

theorem Fault.IsMalformed.expected {fault : Fault} (h : fault.IsMalformed) : fault.Expected := by
  obtain ⟨cause, rfl⟩ := h
  rfl

open Document

variable {height bound : Nat}

theorem Document.shown_failsOnly_of_within [NestingLimits] {P : Fault → Prop} {d : Document}
    (h : d.Within height bound) (hheight : height ≤ NestingLimits.showing) : FailsOnly P d.shown := by
  obtain ⟨s, hs⟩ := canBeShown_of_within h hheight
  exact .of_eq_ok hs

/-! ## Snapshots -/

namespace Layout

/-- Whether every entry under `storage` has a text as its type key, where it has one, and as its
place too, if places are to be told without bold letters. -/
def isSnapshot (bold : Bool) (d : Document) : Bool :=
  d.allAt "storage" fun storage => match storageEntries storage with
    | .ok entries => entries.all fun entry =>
      entry.allAt "type" isText && (bold || entry.allAt "src" isText)
    | .error _ => true

variable {d : Document}

theorem required_failsOnly (h : d.isMap = true) (name : String) :
    FailsOnly Fault.IsMalformed (required d name) := by
  unfold required Document.member
  obtain ⟨table, htable⟩ := Option.isSome_iff_exists.mp (isSome_table?_of_isMap h)
  rw [htable]
  dsimp only
  cases table.find? (.text name) with
  | none => exact .error ⟨_, rfl⟩
  | some value => exact .ok value

theorem readItem_failsOnly (h : d.isMap = true) : FailsOnly Fault.IsMalformed (readItem d) := by
  unfold readItem
  rw [memberOr_of_isMap h]
  exact (required_failsOnly h _).bind fun _ _ => (required_failsOnly h _).bind fun _ _ =>
    (required_failsOnly h _).bind fun _ _ => .ok _

theorem readItems_failsOnly {entries : List Document} (h : ∀ entry ∈ entries, entry.isMap = true) :
    FailsOnly Fault.IsMalformed (readItems entries) := by
  induction entries with
  | nil => exact .ok _
  | cons entry rest ih =>
    obtain ⟨hentry, hrest⟩ := List.forall_mem_cons.mp h
    exact (readItem_failsOnly hentry).bind fun _ _ => (ih hrest).bind fun _ _ => .ok _

theorem readTypes_failsOnly {entries : List (Document × Document)}
    (h : ∀ entry ∈ entries, entry.2.isMap = true) : FailsOnly Fault.IsMalformed (readTypes entries) := by
  induction entries with
  | nil => exact .ok _
  | cons entry rest ih =>
    obtain ⟨hentry, hrest⟩ := List.forall_mem_cons.mp h
    exact (required_failsOnly hentry _).bind fun _ _ => (ih hrest).bind fun _ _ => .ok _

theorem storageEntries_failsOnly (d : Document) : FailsOnly Fault.IsMalformed (storageEntries d) := by
  unfold storageEntries
  split
  · split
    · exact .ok _
    · exact .error ⟨_, rfl⟩
  · exact .error ⟨_, rfl⟩

theorem typeEntries_failsOnly (d : Document) : FailsOnly Fault.IsMalformed (typeEntries d) := by
  unfold typeEntries
  split
  · split
    · exact .ok _
    · exact .error ⟨_, rfl⟩
  · exact .error ⟨_, rfl⟩

/-- The items of a snapshot of the expected kinds have texts as type keys, and as places where these
must be texts. -/
theorem isText_of_isSnapshot {bold : Bool} (h : isSnapshot bold d = true)
    {entries : List Document} {types : List (Document × Document)}
    (hsections : HasSections d entries types) {items : List Item}
    (hitems : List.Forall₂ IsItemOf entries items) :
    ∀ item ∈ items, item.type.isText = true ∧ (bold = false → item.src.isText = true) := by
  obtain ⟨storage, hstorage, hentries⟩ := hsections.storage_at
  have hkinds := of_allAt h hstorage
  rw [hentries] at hkinds
  intro item hitem
  obtain ⟨entry, hentry, hof⟩ := exists_mem_of_forall₂ hitems hitem
  obtain ⟨hkey, hplace⟩ := Bool.and_eq_true_iff.mp (List.all_eq_true.mp hkinds entry hentry)
  refine ⟨of_allAt hkey hof.type, fun hbold => ?_⟩
  rw [hbold, Bool.false_or] at hplace
  exact hof.src ▸ getD_of_allAt hplace (.text "unknown") rfl

/-- **A snapshot of the expected kinds is read, or what it lacks is told.** -/
theorem ofDocument_malformed {bold : Bool} (hmap : d.isMap = true) (h : isSnapshot bold d = true) :
    FailsOnly Fault.IsMalformed (ofDocument d) := by
  refine (required_failsOnly hmap _).bind fun storage hstorage => ?_
  refine (required_failsOnly hmap _).bind fun described hdescribed => ?_
  refine (storageEntries_failsOnly storage).bind fun entries hentries => ?_
  refine (typeEntries_failsOnly described).bind fun types htypes => ?_
  refine (readItems_failsOnly (storageEntries_eq_ok_iff.mp hentries).2).bind fun items hitems => ?_
  refine (readTypes_failsOnly (typeEntries_eq_ok_iff.mp htypes).2).bind fun labels _ => ?_
  intro fault hfault
  have hsections : HasSections d entries types :=
    ⟨⟨storage, required_eq_ok_iff.mp hstorage, hentries⟩, described, required_eq_ok_iff.mp hdescribed,
      htypes⟩
  have htexts := isText_of_isSnapshot h hsections (readItems_eq_ok_iff.mp hitems)
  obtain ⟨names, rfl, -⟩ := namesMissing_of_ofParts (fun item hitem => (htexts item hitem).1) hfault
  exact ⟨_, rfl⟩

theorem ofDocument_failsOnly {bold : Bool} (hmap : d.isMap = true) (h : isSnapshot bold d = true) :
    FailsOnly Fault.Expected (ofDocument d) :=
  (ofDocument_malformed hmap h).mono fun _ => Fault.IsMalformed.expected

/-- Where places must be texts, the places of what is read are. -/
theorem isText_src_of_ofDocument {bold : Bool} (h : isSnapshot bold d = true) {l : Layout}
    (hl : ofDocument d = .ok l) (hbold : bold = false) : ∀ item ∈ l.items, item.src.isText = true := by
  obtain ⟨entries, types, labels, hsections, hitems, -⟩ := ofDocument_eq_ok_iff.mp hl
  exact fun item hitem => (isText_of_isSnapshot h hsections hitems item hitem).2 hbold

end Layout

/-! ## Places -/

/-- Steps in a row that may report events fail as one of them does. -/
theorem Logged.failsOnly_bind {α β : Type} {P : Fault → Prop} {x : Logged α} {f : α → Logged β}
    (hx : FailsOnly P x.result) (hf : ∀ a, x.result = .ok a → FailsOnly P (f a).result) :
    FailsOnly P (x >>= f).result := by
  rw [result_bind]
  exact hx.bind hf

namespace Sources

/-- Whether what is said of a source is its text or nothing. -/
def isContent (source : Document) : Bool :=
  source.isMap && source.allAt "content" fun content => match content with
    | .null => true
    | .text _ => true
    | .unpaired _ => true
    | _ => false

variable {s : Sources}

/-- **The lines of a source are told**, or its text is rejected. -/
theorem lines_failsOnly (h : s.contents.allValues isContent = true) (path : Document) :
    FailsOnly Fault.Expected (s.lines path) := by
  obtain ⟨entries, hentries, hvalues⟩ := exists_entries h
  have htable := entries_eq_ok_iff.mp hentries
  have hsource : isContent (((Table.mk entries).find? path).getD (.record [])) = true := by
    cases hfound : (Table.mk entries).find? path with
    | none => rfl
    | some source =>
      obtain ⟨entry, hentry, -, rfl⟩ := Table.exists_of_find? hfound
      exact hvalues entry hentry
  generalize hsaid : ((Table.mk entries).find? path).getD (.record []) = source at hsource
  obtain ⟨hmap, hcontent⟩ := Bool.and_eq_true_iff.mp hsource
  suffices hfound : FailsOnly Fault.Expected (s.content? path) from hfound.bind fun _ _ => .ok _
  unfold content? memberOrNull
  simp only [htable, bind, Except.bind, hsaid, memberOr_of_isMap hmap]
  cases hat : source.at? "content" with
  | none => exact .ok _
  | some content =>
    have hkind := of_allAt hcontent hat
    cases content with
    | null => exact .ok _
    | text content => exact .ok _
    | unpaired content => exact .error rfl
    | _ => cases hkind

/-- **A node with a text as its source reference is located**, if the reference can be read and the
text of the source has a form in UTF-8. -/
theorem locate_failsOnly [NestingLimits] (h : s.contents.allValues isContent = true)
    (hpaths : ∀ entry ∈ s.paths.entries, entry.2.isText = true) {node : Document} {src : String}
    (hsrc : node.at? "src" = some (.text src)) :
    FailsOnly Fault.Expected (s.locate node).result := by
  rw [locate_eq]
  refine Logged.failsOnly_bind ?_ fun found _ => ?_
  · refine FailsOnly.bind (.of_eq_ok (member_eq_ok_iff.mpr hsrc)) fun written hwritten => ?_
    obtain rfl := Except.ok.inj (hwritten.symm.trans (member_eq_ok_iff.mpr hsrc))
    refine ((SourceReference.read_failsOnly src).mono fun fault hfault => ?_).bind fun _ _ => .ok _
    obtain ⟨why, rfl⟩ := hfault
    rfl
  · obtain ⟨written, reference⟩ := found
    dsimp only
    cases hpath : s.paths.find? (.int reference.source) with
    | none => exact Logged.failsOnly_bind (.ok _) fun _ _ => .ok _
    | some path =>
      obtain ⟨entry, hentry, -, rfl⟩ := Table.exists_of_find? hpath
      obtain ⟨shown, hshown⟩ := canBeShown_of_isText (hpaths entry hentry)
      refine (lines_failsOnly h entry.2).bind fun _ _ => ?_
      unfold placeIn
      split
      · exact .ok _
      · exact FailsOnly.bind (.of_eq_ok hshown) fun _ _ => .ok _

end Sources

/-! ## Layouts -/

namespace Extraction

variable [NestingLimits] {locate : Document → Logged Document}
  (hlocate : ∀ node src, node.at? "src" = some (.text src) →
    FailsOnly Fault.Expected (locate node).result)
  (hheight : height ≤ NestingLimits.showing)
include hlocate hheight

/-- **What a variable is complained about is expected.** -/
theorem Complaint.expected {contract node : Document} {fault : Fault}
    (h : Complaint locate contract node fault) (hcontract : contract.Within height bound) :
    fault.Expected := by
  cases h with
  | unnamed => rfl
  | unshown _ hshown => exact shown_failsOnly_of_within hcontract hheight fault hshown
  | untyped => rfl
  | unlocated hnamed _ hplace =>
    obtain ⟨_, src, -, hsrc⟩ := isNamed_iff.mp hnamed
    exact hlocate node src (at?_of_textAt hsrc) fault hplace

/-- **The layout of a contract with a name and nodes of the expected kinds** is extracted, or fails in
an expected way. -/
theorem layout_failsOnly {definition : Document} (hname : (definition.at? "name").isSome = true)
    (hkinds : definition.allAt "nodes" (·.allItems isNode) = true)
    (hdefinition : definition.Within height bound) :
    FailsOnly Fault.Expected (layout locate definition).result := by
  obtain ⟨contract, hcontract⟩ := Option.isSome_iff_exists.mp hname
  obtain ⟨nodes, helements, hkinds⟩ := exists_elements
    (getD_of_allAt (p := (·.allItems isNode)) hkinds (.row []) rfl)
  have hnodes : HasNodes definition contract nodes := ⟨hcontract, helements, hkinds⟩
  have hnested := (hdefinition.of_member (member_eq_ok_iff.mpr hcontract)).mono
    (Nat.sub_le height 1) (Nat.le_refl bound)
  rw [result_layout hnodes]
  refine FailsOnly.map (fun fault hfault => ?_) _
  obtain ⟨before, node, after, hsplit, -, hnode⟩ := mapM_eq_error_iff.mp hfault
  have hmem : node ∈ nodes.filter isKept := by simp [hsplit]
  have hcomplaint := (declaration_eq_error_iff (hkinds node (List.mem_of_mem_filter hmem))).mp hnode
  exact hcomplaint.expected hlocate hheight hnested

end Extraction

/-! ## Contracts -/

namespace Compilation

/-- The bases that a contract says it has, where it says so. -/
def givenBases (definition : Document) : Document :=
  (definition.at? "linearizedBaseContracts").getD .null

/-- Whether the bases of a contract are listed by keys, or the contract stands alone under a number
of its own. -/
def hasBases (definition : Document) : Bool :=
  if (givenBases definition).isSet then
    match (givenBases definition).backwards with
    | .ok ids => ids.all isKey
    | .error _ => false
  else (definition.at? "id").isSome

/-- Whether a contract definition has a name, nodes, a number and bases of the expected kinds. -/
def isContract (definition : Document) : Bool :=
  (definition.at? "name").isSome && definition.allAt "nodes" (·.allItems Extraction.isNode)
    && definition.allAt "id" isKey && hasBases definition

/-- Whether a node at the top of a tree is told from others, and is of the expected kinds if it
defines a contract. -/
def isTopNode (node : Document) : Bool :=
  node.isMap
    && (!((node.at? "nodeType").getD .null == .text "ContractDefinition") || isContract node)

/-- Whether a source of the output has a number and a tree of the expected kinds. -/
def isSource (source : Document) : Bool :=
  source.isMap && source.allAt "id" isKey
    && source.allAt "ast" fun tree =>
      !tree.isSet || (tree.isMap && tree.allAt "nodes" (·.allItems isTopNode))

/-- **Whether the output of a compilation is of the expected kinds.** -/
def isOutput (output : Document) : Bool := output.isMap && output.allAt "sources" (·.allValues isSource)

/-- **Whether the input of a compilation is of the expected kinds.** -/
def isInput (input : Document) : Bool :=
  input.isMap && input.allAt "sources" (·.allValues Sources.isContent)

/-- **A contract definition that is found** in an output of the expected kinds. -/
structure Found (definition : Document) : Prop where
  isMap : definition.isMap = true
  name : (definition.at? "name").isSome = true
  nodes : definition.allAt "nodes" (·.allItems Extraction.isNode) = true
  id : definition.allAt "id" isKey = true
  bases : hasBases definition = true

theorem found_of_isContract {definition : Document} (hmap : definition.isMap = true)
    (h : isContract definition = true) : Found definition := by
  simp only [isContract, Bool.and_eq_true] at h
  obtain ⟨⟨⟨hname, hnodes⟩, hid⟩, hbases⟩ := h
  exact ⟨hmap, hname, hnodes, hid, hbases⟩

/-- The nodes at the top of the tree of a source are of the expected kinds. -/
theorem isTopNode_of_mem_topNodes {source : Document} (h : isSource source = true) :
    ∀ node ∈ topNodes source, isTopNode node = true := by
  obtain ⟨-, htree⟩ := Bool.and_eq_true_iff.mp h
  obtain ⟨-, hnodes⟩ := Bool.and_eq_true_iff.mp (setOrRecord_of_allAt htree rfl)
  obtain ⟨nodes, helements, hkinds⟩ := exists_elements
    (getD_of_allAt (p := (·.allItems isTopNode)) hnodes (.row []) rfl)
  rw [topNodes_eq, helements]
  exact hkinds

theorem hasTree_of_isSource {source : Document} (h : isSource source = true) :
    hasTree source = true := by
  obtain ⟨-, htree⟩ := Bool.and_eq_true_iff.mp h
  refine allAt_mono htree fun tree htree => ?_
  obtain hunset | htree := Bool.or_eq_true_iff.mp htree
  · exact Bool.or_eq_true_iff.mpr (.inl hunset)
  · obtain ⟨hmap, hnodes⟩ := Bool.and_eq_true_iff.mp htree
    refine Bool.or_eq_true_iff.mpr (.inr (Bool.and_eq_true_iff.mpr ⟨hmap, ?_⟩))
    exact allAt_mono hnodes fun nodes hnodes =>
      allItems_mono hnodes fun node hnode => (Bool.and_eq_true_iff.mp hnode).1

variable {output : Document}

/-- The sources of an output of the expected kinds. -/
theorem listed_of_isOutput (h : isOutput output = true) :
    output.memberOr "sources" (.record []) = .ok (Sources.listed output)
      ∧ (Sources.listed output).entries = .ok (Sources.listedEntries output)
      ∧ ∀ source ∈ Sources.listedEntries output, isSource source.2 = true := by
  obtain ⟨hmap, hsources⟩ := Bool.and_eq_true_iff.mp h
  obtain ⟨entries, hentries, hkinds⟩ := exists_entries
    (getD_of_allAt (p := (·.allValues isSource)) hsources (.record []) rfl)
  have hlisted : Sources.listedEntries output = entries := by
    rw [Sources.listedEntries, Sources.listed, entries_eq_ok_iff.mp hentries]
    rfl
  rw [hlisted]
  exact ⟨memberOr_of_isMap hmap "sources" _, hentries, hkinds⟩

/-- **An output of the expected kinds lists contracts** of the expected kinds. -/
theorem listsContracts_of_isOutput (h : isOutput output = true) :
    ListsContracts output ∧ ∀ found ∈ listedContracts output, Found found.2 := by
  obtain ⟨hmap, -⟩ := Bool.and_eq_true_iff.mp h
  obtain ⟨-, hentries, hkinds⟩ := listed_of_isOutput h
  constructor
  · refine ⟨⟨isSome_table?_of_isMap hmap, ?_, fun source hsource => ?_⟩, fun source hsource =>
      hasTree_of_isSource (hkinds source hsource)⟩
    · rw [entries_eq_ok_iff.mp hentries]
      rfl
    · have hkind := hkinds source hsource
      simp only [isSource, Bool.and_eq_true] at hkind
      exact isSome_table?_of_isMap hkind.1.1
  · intro found hfound
    obtain ⟨source, hsource, hfound⟩ := List.mem_flatMap.mp hfound
    obtain ⟨node, hnode, rfl⟩ := List.mem_map.mp hfound
    obtain ⟨hnode, hcontract⟩ := List.mem_filter.mp hnode
    have hkind := isTopNode_of_mem_topNodes (hkinds source hsource) node hnode
    obtain ⟨hmap, hkind⟩ := Bool.and_eq_true_iff.mp hkind
    rw [definesContract] at hcontract
    rw [beq_text_eq_text?, ← textAt_singleton, hcontract] at hkind
    exact found_of_isContract hmap hkind

/-! ## Finding a contract -/

variable {defs : List (Document × Document)}

/-- **A contract is found, or there is none or more than one of its name.** -/
theorem find_failsOnly [NestingLimits] (h : ListsPaths output) (name : String) :
    FailsOnly Fault.Expected (find output (.ofText name)) := by
  obtain ⟨several, hseveral, -⟩ := exists_candidates_qualifying h name
  rw [find_ofText h.toListsContracts]
  match qualifying output name, hseveral with
  | [], _ => exact .error rfl
  | [_], _ => exact .ok _
  | first :: second :: rest, hseveral => exact FailsOnly.bind (.of_eq_ok hseveral) fun _ _ => .error rfl

/-! ## Bases -/

theorem exists_baseIds {definition : Document} (h : Found definition) :
    ∃ ids, baseIds definition = .ok ids ∧ ∀ id ∈ ids, id.isKey = true := by
  have hbases := h.bases
  unfold hasBases at hbases
  unfold baseIds memberOrNull
  rw [memberOr_of_isMap h.isMap]
  show ∃ ids, (if (givenBases definition).isSet then _ else _) = _ ∧ _
  split at hbases
  · next hset =>
    rw [if_pos hset]
    split at hbases
    · next ids hids => exact ⟨ids, hids, List.all_eq_true.mp hbases⟩
    · cases hbases
  · next hset =>
    obtain ⟨id, hid⟩ := Option.isSome_iff_exists.mp hbases
    rw [if_neg hset, member_eq_ok_iff.mpr hid]
    exact ⟨[id], rfl, List.forall_mem_singleton.mpr (of_allAt h.id hid)⟩

theorem within_of_baseIds {definition : Document} {ids : List Document}
    (h : definition.Within height bound) (hids : baseIds definition = .ok ids) :
    ∀ id ∈ ids, id.Within height bound := by
  obtain ⟨given, hgiven, hids⟩ := bind_eq_ok_iff.mp hids
  have hgiven := h.of_memberOr .null hgiven
  split at hids
  · intro id hid
    unfold backwards at hids
    split at hids
    · cases hids
    · cases helements : given.elements with
      | error fault =>
        rw [helements] at hids
        cases hids
      | ok items =>
        rw [helements] at hids
        obtain rfl := Except.ok.inj hids
        exact (hgiven.of_elements helements id (List.mem_reverse.mp hid)).mono (by omega)
          (Nat.le_refl bound)
  · obtain ⟨id, hid, hids⟩ := bind_eq_ok_iff.mp hids
    obtain rfl := Except.ok.inj hids
    exact List.forall_mem_singleton.mpr
      ((h.of_member hid).mono (Nat.sub_le height 1) (Nat.le_refl bound))

/-- **A base that is asked for by a key is found**, or it is not known. -/
theorem base_failsOnly [NestingLimits] (known : Table Document) {definition id : Document}
    (h : Found definition) (hdefinition : definition.Within height bound)
    (hheight : height ≤ NestingLimits.showing) (hkey : id.isKey = true)
    (hid : id.Within height bound) :
    FailsOnly Fault.Expected (base known definition id) := by
  obtain ⟨name, hname⟩ := Option.isSome_iff_exists.mp h.name
  have hname := member_eq_ok_iff.mpr hname
  have hshown := (hdefinition.of_member hname).mono (Nat.sub_le height 1) (Nat.le_refl bound)
  unfold base memberOrNull
  rw [memberOr_of_isMap h.isMap]
  refine FailsOnly.bind (.ok _) fun own _ => ?_
  split
  · exact .ok _
  · unfold lookUp
    rw [if_pos hkey]
    refine FailsOnly.bind (.ok _) fun found _ => ?_
    split
    · exact .ok _
    · refine FailsOnly.bind (shown_failsOnly_of_within hid hheight) fun missing _ => ?_
      rw [hname]
      refine FailsOnly.bind (.ok _) fun name hname => ?_
      obtain rfl := Except.ok.inj hname
      exact FailsOnly.bind (shown_failsOnly_of_within hshown hheight) fun _ _ => .error rfl

/-! ## Extracting -/

theorem baseLayouts_failsOnly [NestingLimits] {locate : Document → Logged Document}
    (hlocate : ∀ node src, node.at? "src" = some (.text src) →
      FailsOnly Fault.Expected (locate node).result)
    (hheight : height ≤ NestingLimits.showing) (hdefs : definitions output = .ok defs)
    (hfound : ∀ found ∈ defs, Found found.2) (hwithin : ∀ found ∈ defs, found.2.Within height bound)
    {known : Table Document} (hknown : definitionsById output = .ok known) {definition : Document}
    (hdefinition : definition ∈ defs.map Prod.snd) {ids : List Document}
    (hkeys : ∀ id ∈ ids, id.isKey = true) (hids : ∀ id ∈ ids, id.Within height bound) :
    FailsOnly Fault.Expected (baseLayouts locate known definition ids).result := by
  obtain ⟨own, hown, rfl⟩ := List.mem_map.mp hdefinition
  induction ids with
  | nil => exact .ok _
  | cons id rest ih =>
    obtain ⟨hkey, hkeys⟩ := List.forall_mem_cons.mp hkeys
    obtain ⟨hid, hids⟩ := List.forall_mem_cons.mp hids
    refine Logged.failsOnly_bind
      (base_failsOnly known (hfound own hown) (hwithin own hown) hheight hkey hid) fun b hb => ?_
    obtain ⟨found, hmem, rfl⟩ := List.mem_map.mp (mem_of_base hknown hdefs hdefinition hb)
    have hbase := hfound found hmem
    refine Logged.failsOnly_bind (Extraction.layout_failsOnly hlocate hheight hbase.name hbase.nodes
      (hwithin found hmem)) fun first _ => ?_
    exact Logged.failsOnly_bind (ih hkeys hids) fun _ _ => .ok _

/-- **The sources of a compilation of the expected kinds.** -/
theorem exists_ofCompilation {input : Document} (hinput : isInput input = true)
    (houtput : isOutput output = true) :
    ∃ s, Sources.ofCompilation input output = .ok s
      ∧ s.contents.allValues Sources.isContent = true := by
  obtain ⟨hsources, hentries, hkinds⟩ := listed_of_isOutput houtput
  have hnumbered : ∀ source ∈ Sources.listedEntries output,
      source.2.isMap = true ∧ source.2.allAt "id" isKey = true := by
    intro source hsource
    have hkind := hkinds source hsource
    simp only [isSource, Bool.and_eq_true] at hkind
    exact hkind.1
  obtain ⟨paths, hpaths, -⟩ := Sources.enterAll_eq_ok
    (fun source hsource => isSome_table?_of_isMap (hnumbered source hsource).1)
    (fun source hsource _ hid => of_allAt (hnumbered source hsource).2 hid) .empty
  obtain ⟨hmap, hcontents⟩ := Bool.and_eq_true_iff.mp hinput
  refine ⟨⟨paths, (input.at? "sources").getD (.record [])⟩, ?_,
    getD_of_allAt (p := (·.allValues Sources.isContent)) hcontents (.record []) rfl⟩
  exact bind_eq_ok_iff.mpr ⟨_, hsources, bind_eq_ok_iff.mpr ⟨_, hentries,
    bind_eq_ok_iff.mpr ⟨paths, hpaths, bind_eq_ok_iff.mpr
      ⟨_, memberOr_of_isMap hmap "sources" _, rfl⟩⟩⟩⟩

/-- **Where the kinds are right an extraction fails only in expected ways.** -/
theorem layout_failsOnly [NestingLimits] {input : Document} (hinput : isInput input = true)
    (houtput : isOutput output = true) (hwithin : output.Within height bound)
    (hheight : height ≤ NestingLimits.showing) (hdeep : 6 < height) (name : String) :
    FailsOnly Fault.Expected (layout input output (.ofText name)).result := by
  obtain ⟨hlists, hfound⟩ := listsContracts_of_isOutput houtput
  have hdefs := definitions_eq_ok hlists
  have hlistsPaths : ListsPaths output := ⟨hlists, isText_path_of_definitions hwithin.isJson hdefs⟩
  have hnumbers : NumbersContracts output :=
    ⟨hlists, fun found hmem _ hid => of_allAt (hfound found hmem).id hid⟩
  have hnested := within_of_definitions hwithin (by omega) hdefs
  refine Logged.failsOnly_bind ?_ fun definition hdefinition => ?_
  · exact Logged.failsOnly_bind (find_failsOnly hlistsPaths name) fun _ _ =>
      Logged.failsOnly_bind (.ok _) fun _ _ => .ok _
  · obtain ⟨found, hfind, hdefinition⟩ := Logged.result_bind_eq_ok_iff.mp hdefinition
    obtain ⟨_, -, hdefinition⟩ := Logged.result_bind_eq_ok_iff.mp hdefinition
    obtain rfl := Except.ok.inj hdefinition
    have hmem := mem_of_find hfind hdefs
    obtain ⟨s, hs, hcontents⟩ := exists_ofCompilation hinput houtput
    have hpaths := Sources.isText_of_ofCompilation hwithin.isJson hs
    obtain ⟨known, hknown, -⟩ := exists_definitionsById hnumbers
    obtain ⟨ids, hids, hkeys⟩ := exists_baseIds (hfound found hmem)
    rw [hs, Logged.lift_ok_bind]
    refine Logged.failsOnly_bind ?_ fun _ _ => Logged.failsOnly_bind (.ok _) fun _ _ => .ok _
    unfold linearizedLayout
    rw [hknown, Logged.lift_ok_bind, hids, Logged.lift_ok_bind]
    refine Logged.failsOnly_bind ?_ fun _ _ => .ok _
    exact baseLayouts_failsOnly (fun node src hsrc => Sources.locate_failsOnly hcontents hpaths hsrc)
      (by omega) hdefs hfound hnested hknown (List.mem_map_of_mem hmem) hkeys
      (within_of_baseIds (hnested found hmem) hids)

end Compilation

end SlotSafe
