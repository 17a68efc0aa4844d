import SlotSafe.Proofs.Kinds

/-!
# The contracts that an output lists

Contract definitions are collected source by source and node by node, and any look into a source may
fail. Where the output is of the shape that a compiler gives it (`ListsContracts`), none does, and
**the collected definitions are the nodes at the top of the trees that define contracts**, each with
the path of its source and all in the order of the output (`definitions_eq_ok`).
-/

namespace SlotSafe.Compilation

open Document Sources

/-- The nodes at the top of the syntax tree of a source, if it has one. -/
def topNodes (source : Document) : List Document :=
  (((source.at? "ast").bind (·.at? "nodes")).getD (.row [])).elements.toOption.getD []

/-- Whether a node defines a contract. -/
def definesContract (node : Document) : Bool :=
  node.textAt ["nodeType"] == some "ContractDefinition"

/-- **The contract definitions that an output lists**, each with the path of its source. -/
def listedContracts (output : Document) : List (Document × Document) :=
  (listedEntries output).flatMap fun source =>
    ((topNodes source.2).filter definesContract).map (source.1, ·)

/-- Whether the syntax tree of a source, if it has one, has maps as the nodes at its top. -/
def hasTree (source : Document) : Bool :=
  source.allAt "ast" fun tree =>
    !tree.isSet || (tree.isMap && tree.allAt "nodes" (·.allItems isMap))

/-- **An output that lists contracts**: it lists sources, and each of them has a tree or none. -/
structure ListsContracts (output : Document) : Prop extends Lists output where
  trees : ∀ source ∈ listedEntries output, hasTree source.2 = true

theorem definitionsAmong_eq_ok (path : Document) {nodes : List Document}
    (h : ∀ node ∈ nodes, node.isMap = true) :
    definitionsAmong path nodes = .ok ((nodes.filter definesContract).map (path, ·)) := by
  induction nodes with
  | nil => rfl
  | cons node rest ih =>
    obtain ⟨hnode, hrest⟩ := List.forall_mem_cons.mp h
    unfold definitionsAmong memberOrNull
    rw [memberOr_of_isMap hnode, ih hrest]
    show Except.ok
      (if (node.at? "nodeType").getD .null == .text "ContractDefinition" then _ else _) = _
    rw [beq_text_eq_text?, ← textAt_singleton, List.filter_cons]
    show Except.ok (if definesContract node then _ else _) = _
    cases definesContract node <;> rfl

/-- The nodes at the top of a tree, where an empty map stands in for none. -/
theorem topNodes_eq (source : Document) :
    topNodes source
      = ((((if ((source.at? "ast").getD .null).isSet then (source.at? "ast").getD .null
          else .record []).at? "nodes").getD (.row [])).elements.toOption).getD [] := by
  unfold topNodes
  refine congrArg
    (fun nodes : Option Document => (nodes.getD (.row [])).elements.toOption.getD []) ?_
  cases source.at? "ast" with
  | none => rfl
  | some tree =>
    cases hset : tree.isSet with
    | true => simp [hset]
    | false => simp [hset, at?_of_not_isSet hset]; rfl

theorem definitionsOf_eq_ok (path : Document) {source : Document}
    (hmap : source.table?.isSome = true) (h : hasTree source = true) :
    definitionsOf path source = .ok (((topNodes source).filter definesContract).map (path, ·)) := by
  obtain ⟨htree, hnodes⟩ := Bool.and_eq_true_iff.mp (setOrRecord_of_allAt h rfl)
  obtain ⟨nodes, helements, hmaps⟩ := exists_elements
    (getD_of_allAt (p := (·.allItems isMap)) hnodes (.row []) rfl)
  unfold definitionsOf memberOrNull
  rw [memberOr_of_isSome hmap, topNodes_eq]
  simp only [bind, Except.bind, memberOr_of_isMap htree, helements]
  exact definitionsAmong_eq_ok path hmaps

theorem definitionsIn_eq_ok {sources : List (Document × Document)}
    (hmaps : ∀ source ∈ sources, source.2.table?.isSome = true)
    (h : ∀ source ∈ sources, hasTree source.2 = true) :
    definitionsIn sources = .ok (sources.flatMap fun source =>
      ((topNodes source.2).filter definesContract).map (source.1, ·)) := by
  induction sources with
  | nil => rfl
  | cons source rest ih =>
    obtain ⟨hmap, hmaps⟩ := List.forall_mem_cons.mp hmaps
    obtain ⟨htree, h⟩ := List.forall_mem_cons.mp h
    unfold definitionsIn
    rw [definitionsOf_eq_ok source.1 hmap htree, ih hmaps h]
    rfl

variable {output : Document}

/-- **The contract definitions of an output are those that it lists.** -/
theorem definitions_eq_ok (h : ListsContracts output) :
    definitions output = .ok (listedContracts output) := by
  obtain ⟨table, htable⟩ := Option.isSome_iff_exists.mp h.sources
  have hentries : listedEntries output = table.entries := by rw [listedEntries, htable]; rfl
  unfold definitions
  rw [memberOr_of_isSome h.isMap]
  show ((listed output).entries >>= definitionsIn) = _
  rw [entries_eq_ok_iff.mpr htable, listedContracts, hentries]
  exact definitionsIn_eq_ok (hentries ▸ h.maps) (hentries ▸ h.trees)

/-- A listed contract can be asked for its members. -/
theorem isSome_table?_of_listed {found : Document × Document} (h : found ∈ listedContracts output) :
    found.2.table?.isSome = true := by
  obtain ⟨source, -, hfound⟩ := List.mem_flatMap.mp h
  obtain ⟨node, hnode, rfl⟩ := List.mem_map.mp hfound
  have hkind : node.textAt ["nodeType"] = some "ContractDefinition" :=
    beq_iff_eq.mp (List.mem_filter.mp hnode).2
  exact isSome_table?_of_at? (at?_of_textAt hkind)

end SlotSafe.Compilation
