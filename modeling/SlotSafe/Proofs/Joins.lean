import SlotSafe.Layout
import SlotSafe.Proofs.Tables

/-!
# Joining layouts

The layouts of the bases of a contract are joined end to end, and so may be what was joined before.
**In how many steps that is done shows nowhere in the result** (`concat_map_concat`): not in the
order of the types, where each key keeps the place in which it occurs first, and not in the labels,
where the last layout that has a key decides.

So the label of a variable's type depends on the layouts that are joined behind its own. It is kept
exactly when the last layout that has its type key gives the same label (`IsJoin.kept`).
-/

namespace SlotSafe.Layout

/-- **The last layout that has a type key**, among some. -/
def IsLastWith (layouts : List Layout) (key : Document) (last : Layout) : Prop :=
  ∃ before after, layouts = before ++ last :: after ∧ last.types.contains key = true
    ∧ ∀ l ∈ after, l.types.contains key = false

/-- **What layouts are joined to**: the items in a row, the type keys in the order in which they occur
first, and each key with the label that the last layout gives it. -/
structure IsJoin (layouts : List Layout) (joined : Layout) : Prop where
  items : joined.items = layouts.flatMap (·.items)
  keys : joined.types.keys = (layouts.flatMap (·.types.keys)).eraseDupsBy Document.sameKey
  labels : ∀ key last, IsLastWith layouts key last →
    joined.types.find? key = last.types.find? key
  /-- An item has in the join the label that the last layout with its type key gives it, and so it
  keeps its own label exactly when that is the same. -/
  kept : ∀ l ∈ layouts, ∀ item ∈ l.items, ∃ last, IsLastWith layouts item.type last
    ∧ joined.typeLabel item = last.typeLabel item
    ∧ (joined.typeLabel item = l.typeLabel item ↔ last.typeLabel item = l.typeLabel item)

/-! ## Grouping -/

theorem joinedItems_map_concat (groups : List (List Layout)) :
    joinedItems (groups.map concat) = joinedItems groups.flatten := by
  unfold joinedItems
  rw [List.flatMap_map, List.flatten_eq_flatMap, List.flatMap_assoc]
  rfl

theorem joinedTypes_map_concat (groups : List (List Layout)) :
    joinedTypes (groups.map concat) = joinedTypes groups.flatten := by
  unfold joinedTypes
  rw [List.flatMap_map]
  exact Table.ofList_flatMap_ofList (fun l : Layout => l.types.entries) groups

/-! ## Labels -/

variable {layouts : List Layout} {key : Document} {last : Layout}

theorem exists_isLastWith (h : ∃ l ∈ layouts, l.types.contains key = true) :
    ∃ last, IsLastWith layouts key last := by
  induction layouts with
  | nil =>
    obtain ⟨l, hl, -⟩ := h
    cases hl
  | cons first rest ih =>
    by_cases hrest : ∃ l ∈ rest, l.types.contains key = true
    · obtain ⟨last, before, after, rfl, hlast⟩ := ih hrest
      exact ⟨last, first :: before, after, rfl, hlast⟩
    · obtain ⟨l, hl, hkey⟩ := h
      obtain rfl | hl := List.mem_cons.mp hl
      · refine ⟨l, [], rest, rfl, hkey, fun other hother => ?_⟩
        exact eq_false_of_ne_true fun hother' => hrest ⟨other, hother, hother'⟩
      · exact absurd ⟨l, hl, hkey⟩ hrest

/-- **The last layout that has a key gives it its label.** -/
theorem IsLastWith.find?_joinedTypes (h : IsLastWith layouts key last)
    (hdistinct : Table.DistinctKeys last.types.keys) :
    (joinedTypes layouts).find? key = last.types.find? key := by
  obtain ⟨before, after, rfl, hkey, hafter⟩ := h
  obtain ⟨label, hlabel⟩ :=
    Option.isSome_iff_exists.mp (Table.contains_eq_isSome_find? last.types key ▸ hkey)
  have hunfound : (Table.mk (after.flatMap (·.types.entries)).reverse).find? key = none := by
    refine Option.map_eq_none_iff.mpr (List.find?_eq_none.mpr fun entry hentry => ?_)
    obtain ⟨l, hl, hentry⟩ := List.mem_flatMap.mp (List.mem_reverse.mp hentry)
    exact List.any_eq_false.mp (hafter l hl) entry hentry
  have hfound : (Table.mk last.types.entries.reverse).find? key = some label := by
    have hcollected := Table.find?_insertAll .empty last.types.entries key
    have hself : Table.insertAll .empty last.types.entries = last.types :=
      Table.ofList_of_distinctKeys hdistinct
    rw [hself, hlabel] at hcollected
    exact (hcollected.trans Option.or_none).symm
  have hjoined : joinedTypes (before ++ last :: after)
      = ((Table.ofList (before.flatMap (·.types.entries))).insertAll last.types.entries).insertAll
        (after.flatMap (·.types.entries)) := by
    rw [joinedTypes, List.flatMap_append, List.flatMap_cons, Table.ofList, Table.insertAll_append,
      Table.insertAll_append]
    rfl
  rw [hjoined, Table.find?_insertAll, hunfound, Option.none_or, Table.find?_insertAll, hfound,
    Option.some_or, hlabel]

/-- Where the same is found under its type key, an item has the same label. -/
theorem typeLabel_eq_of_find? {l m : Layout} {item : Item}
    (h : l.types.find? item.type = m.types.find? item.type) : l.typeLabel item = m.typeLabel item := by
  unfold typeLabel Document.lookUp
  rw [h]

theorem isJoin_concat (hdistinct : ∀ l ∈ layouts, Table.DistinctKeys l.types.keys) :
    IsJoin layouts (concat layouts) := by
  have hlabels : ∀ key last, IsLastWith layouts key last →
      (concat layouts).types.find? key = last.types.find? key := by
    intro key last hlast
    have hmem : last ∈ layouts := by
      obtain ⟨before, after, rfl, -⟩ := hlast
      exact List.mem_append_right before List.mem_cons_self
    exact hlast.find?_joinedTypes (hdistinct last hmem)
  refine ⟨rfl, ?_, hlabels, fun l hl item hitem => ?_⟩
  · show (Table.ofList (layouts.flatMap (·.types.entries))).keys = _
    rw [Table.keys_ofList, List.map_flatMap]
    rfl
  · obtain ⟨last, hlast⟩ := exists_isLastWith ⟨l, hl, l.closed item hitem⟩
    have hlabel := typeLabel_eq_of_find? (hlabels item.type last hlast)
    exact ⟨last, hlast, hlabel, by rw [hlabel]⟩

/-- **Layouts are joined in any grouping**, to one and the same layout: joining what groups of layouts
are joined to is joining the layouts themselves. If each has distinct type keys, the items follow one
another, the keys come in the order in which they occur first, and the last layout that has a key
decides about its label. -/
theorem concat_map_concat (groups : List (List Layout)) :
    concat (groups.map concat) = concat groups.flatten
      ∧ ((∀ l ∈ groups.flatten, Table.DistinctKeys l.types.keys) →
        IsJoin groups.flatten (concat groups.flatten)) := by
  refine ⟨?_, isJoin_concat⟩
  show Layout.mk (joinedItems (groups.map concat)) (joinedTypes (groups.map concat)) _
    = Layout.mk (joinedItems groups.flatten) (joinedTypes groups.flatten) _
  rw [Layout.mk.injEq]
  exact ⟨joinedItems_map_concat groups, joinedTypes_map_concat groups⟩

/-! ## An example -/

/-- A layout of one variable and its type. -/
def ofVariable (name type label : String) : Layout where
  items := [⟨.text "C", .text name, .text type, .text "C.sol:1"⟩]
  types := ⟨[(.text type, .text label)]⟩
  closed := List.forall_mem_singleton.mpr (by simp [Table.contains])

/-- Two layouts that disagree about a type, and one with another type between them. -/
def disagreeing : List (List Layout) :=
  [[ofVariable "a" "t_struct" "struct A.S", ofVariable "b" "t_bool" "bool"],
    [ofVariable "c" "t_struct" "struct B.S"]]

/-- The variable of the first layout. -/
def structItem : Item := ⟨.text "C", .text "a", .text "t_struct", .text "C.sol:1"⟩

/-- The first variable does not keep its label, though its own group is joined with it. -/
theorem concat_map_concat_disagreeing :
    concat (disagreeing.map concat) = concat disagreeing.flatten
      ∧ (concat disagreeing.flatten).types.keys = [.text "t_struct", .text "t_bool"]
      ∧ (concat disagreeing.flatten).typeLabel structItem
        ≠ (ofVariable "a" "t_struct" "struct A.S").typeLabel structItem := by
  obtain ⟨hgrouped, hjoin⟩ := concat_map_concat disagreeing
  have hvalid : ∀ l ∈ disagreeing.flatten, Table.DistinctKeys l.types.keys := by
    simp only [disagreeing, List.flatten_cons, List.cons_append, List.nil_append, List.flatten_nil,
      List.forall_mem_cons]
    exact ⟨List.pairwise_singleton _ _, List.pairwise_singleton _ _, List.pairwise_singleton _ _,
      List.forall_mem_nil _⟩
  have hlast : IsLastWith disagreeing.flatten (.text "t_struct")
      (ofVariable "c" "t_struct" "struct B.S") :=
    ⟨[_, _], [], rfl, by decide, List.forall_mem_nil _⟩
  refine ⟨hgrouped, (hjoin hvalid).keys.trans rfl, fun hkept => ?_⟩
  have hlabel : (concat disagreeing.flatten).typeLabel structItem
      = (ofVariable "c" "t_struct" "struct B.S").typeLabel structItem :=
    typeLabel_eq_of_find? ((hjoin hvalid).labels _ _ hlast)
  rw [hlabel] at hkept
  exact absurd (Document.text.inj (Except.ok.inj hkept)) (by decide)

end SlotSafe.Layout
