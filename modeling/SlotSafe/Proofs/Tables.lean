import SlotSafe.Table

/-!
# What a table holds

An insertion answers for its own key and leaves all other keys alone (`find?_insert`), so of many
insertions the last one under a key decides (`find?_insertAll`). Where all entries under a key agree
it does not matter which one that is, nor in how many tables they were collected on the way
(`find?_ofList`): entries go from table to table with their keys and values
(`exists_of_mem_ofList`). Entries with distinct keys are collected as they come
(`ofList_of_distinctKeys`), and of others each key keeps the place in which it occurs first
(`keys_ofList`). In how many tables entries were collected on the way shows neither in the order nor
in the values (`ofList_flatMap_ofList`).
-/

namespace SlotSafe.Table

variable {β : Type}

/-- Documents of one key find the same. -/
theorem sameKey_congr {k l : Document} (h : k.sameKey l = true) (m : Document) :
    k.sameKey m = l.sameKey m := by
  rw [Bool.eq_iff_iff]
  exact ⟨sameKey_trans (sameKey_symm h), sameKey_trans h⟩

theorem sameKey_comm (k l : Document) : k.sameKey l = l.sameKey k := by
  rw [Bool.eq_iff_iff]
  exact ⟨sameKey_symm, sameKey_symm⟩

theorem sameKey_congr_right {k l : Document} (h : k.sameKey l = true) (m : Document) :
    m.sameKey k = m.sameKey l := by
  rw [Bool.eq_iff_iff]
  exact ⟨fun h' => sameKey_trans h' h, fun h' => sameKey_trans h' (sameKey_symm h)⟩

theorem find?_congr {k l : Document} (h : k.sameKey l = true) (t : Table β) :
    t.find? k = t.find? l := by
  rw [find?, find?, show (fun entry : Document × β => k.sameKey entry.1)
    = fun entry => l.sameKey entry.1 from funext (fun entry => sameKey_congr h entry.1)]

theorem find?_cons (k : Document) (entry : Document × β) (rest : List (Document × β)) :
    (Table.mk (entry :: rest)).find? k
      = if k.sameKey entry.1 then some entry.2 else (Table.mk rest).find? k := by
  unfold find?
  rw [List.find?_cons]
  cases k.sameKey entry.1 <;> rfl

/-- **An insertion answers for its own key** and leaves all other keys alone. -/
theorem find?_insert (t : Table β) (k l : Document) (v : β) :
    (t.insert l v).find? k = if k.sameKey l then some v else t.find? k := by
  obtain ⟨entries⟩ := t
  unfold insert
  induction entries with
  | nil => exact find?_cons k (l, v) []
  | cons entry rest ih =>
    rw [insertEntry]
    by_cases hl : l.sameKey entry.1 = true
    · rw [if_pos hl, find?_cons, find?_cons, sameKey_congr_right hl]
      cases k.sameKey entry.1 <;> rfl
    · rw [if_neg hl, find?_cons, find?_cons]
      by_cases hk : k.sameKey entry.1 = true
      · -- the key stands there already, so it is not the inserted one
        have hne : ¬k.sameKey l = true := fun h => hl (sameKey_trans (sameKey_symm h) hk)
        rw [if_pos hk, if_neg hne, if_pos hk]
      · rw [if_neg hk, if_neg hk]
        exact ih

/-- **Of many insertions under a key the last one decides.** -/
theorem find?_insertAll (t : Table β) (entries : List (Document × β)) (k : Document) :
    (t.insertAll entries).find? k = ((Table.mk entries.reverse).find? k).or (t.find? k) := by
  induction entries generalizing t with
  | nil => rfl
  | cons entry rest ih =>
    have hfront : (Table.mk (rest.reverse ++ [entry])).find? k
        = ((Table.mk rest.reverse).find? k).or
          (if k.sameKey entry.1 then some entry.2 else none) := by
      unfold find?
      rw [List.find?_append]
      cases hfound : rest.reverse.find? (fun e => k.sameKey e.1) with
      | some e => rfl
      | none => cases hk : k.sameKey entry.1 <;> simp [hk]
    rw [List.reverse_cons, hfront, Option.or_assoc]
    refine (ih _).trans (congrArg _ ?_)
    rw [find?_insert]
    cases k.sameKey entry.1 <;> rfl

/-- **What is found among collected entries** is the value of the last one under the key. -/
theorem find?_ofList_eq_getLast? (entries : List (Document × β)) (k : Document) :
    (ofList entries).find? k
      = ((entries.filter fun entry => k.sameKey entry.1).getLast?).map (·.2) := by
  rw [ofList, find?_insertAll, List.getLast?_filter]
  exact Option.or_none

/-- What is found is the value of an entry under the key. -/
theorem exists_of_find? {t : Table β} {k : Document} {v : β} (h : t.find? k = some v) :
    ∃ entry ∈ t.entries, k.sameKey entry.1 = true ∧ entry.2 = v := by
  obtain ⟨entry, he, rfl⟩ := Option.map_eq_some_iff.mp h
  have hkey := List.find?_some he
  exact ⟨entry, List.mem_of_find?_eq_some he, hkey, rfl⟩

/-- **Entries that agree are found**, whichever of them was inserted last. -/
theorem find?_ofList {entries : List (Document × β)} {k : Document} {v : β}
    (hfound : ∃ entry ∈ entries, k.sameKey entry.1 = true)
    (hagree : ∀ entry ∈ entries, k.sameKey entry.1 = true → entry.2 = v) :
    (Table.ofList entries).find? k = some v := by
  have hcontains : (Table.ofList entries).contains k = true :=
    contains_insertAll_of_any (List.any_eq_true.mpr hfound)
  rw [contains_eq_isSome_find?, Option.isSome_iff_exists] at hcontains
  obtain ⟨w, hw⟩ := hcontains
  have hlast : (Table.mk entries.reverse).find? k = some w := by
    rw [ofList, find?_insertAll] at hw
    exact (Option.or_eq_some_iff.mp hw).resolve_right (fun h => by simp [empty, find?] at h)
  obtain ⟨entry, hmem, hkey, hvalue⟩ := exists_of_find? hlast
  rw [hw, ← hvalue, hagree entry (List.mem_reverse.mp hmem) hkey]

/-- An entry of a table after an insertion was there before, or has the inserted value under a key
that finds the same. -/
theorem mem_insert {t : Table β} {l : Document} {v : β} {entry : Document × β}
    (h : entry ∈ (t.insert l v).entries) :
    entry ∈ t.entries ∨ entry.2 = v ∧ ∀ k : Document, k.sameKey entry.1 = k.sameKey l := by
  obtain ⟨entries⟩ := t
  unfold insert at h
  induction entries with
  | nil =>
    obtain rfl := List.mem_singleton.mp h
    exact Or.inr ⟨rfl, fun k => rfl⟩
  | cons first rest ih =>
    rw [insertEntry] at h
    by_cases hl : l.sameKey first.1 = true
    · rw [if_pos hl] at h
      obtain rfl | hmem := List.mem_cons.mp h
      · exact Or.inr ⟨rfl, fun k => (sameKey_congr_right hl k).symm⟩
      · exact Or.inl (List.mem_cons_of_mem _ hmem)
    · rw [if_neg hl] at h
      obtain rfl | hmem := List.mem_cons.mp h
      · exact Or.inl List.mem_cons_self
      · exact (ih hmem).imp_left (List.mem_cons_of_mem _)

theorem exists_of_mem_insertAll {t : Table β} {entries : List (Document × β)}
    {entry : Document × β} (h : entry ∈ (t.insertAll entries).entries) :
    entry ∈ t.entries ∨ ∃ origin ∈ entries, origin.2 = entry.2
      ∧ ∀ k : Document, k.sameKey entry.1 = k.sameKey origin.1 := by
  induction entries generalizing t with
  | nil => exact Or.inl h
  | cons first rest ih =>
    obtain hmem | ⟨origin, horigin, hkept⟩ := ih h
    · obtain hmem | ⟨hvalue, hkey⟩ := mem_insert hmem
      · exact Or.inl hmem
      · exact Or.inr ⟨first, List.mem_cons_self, hvalue.symm, hkey⟩
    · exact Or.inr ⟨origin, List.mem_cons_of_mem _ horigin, hkept⟩

/-- **Entries keep their values under their keys** when they are collected in a table. -/
theorem exists_of_mem_ofList {entries : List (Document × β)} {entry : Document × β}
    (h : entry ∈ (Table.ofList entries).entries) :
    ∃ origin ∈ entries, origin.2 = entry.2
      ∧ ∀ k : Document, k.sameKey entry.1 = k.sameKey origin.1 :=
  (exists_of_mem_insertAll h).resolve_left List.not_mem_nil

/-! ## Distinct keys -/

/-- **Keys of which none finds what stands under another.** -/
def DistinctKeys (keys : List Document) : Prop := keys.Pairwise fun k l => l.sameKey k = false

instance (keys : List Document) : Decidable (DistinctKeys keys) :=
  inferInstanceAs (Decidable (keys.Pairwise _))

theorem distinctKeys_text_iff {names : List String} :
    DistinctKeys (names.map Document.text) ↔ names.Nodup := by
  unfold DistinctKeys List.Nodup
  rw [List.pairwise_map]
  simp only [Document.sameKey_text, beq_eq_false_iff_ne, ne_comm]

/-- **Each entry is found under its key** where keys are distinct. -/
theorem find?_entries_of_mem {entries : List (Document × β)}
    (hdistinct : DistinctKeys (entries.map (·.1))) {entry : Document × β} (h : entry ∈ entries)
    (hkey : entry.1.sameKey entry.1 = true) :
    entries.find? (fun other => entry.1.sameKey other.1) = some entry := by
  induction entries with
  | nil => cases h
  | cons first rest ih =>
    obtain ⟨hfirst, hrest⟩ := List.pairwise_cons.mp hdistinct
    obtain rfl | hmem := List.mem_cons.mp h
    · rw [List.find?_cons, hkey]
    · rw [List.find?_cons, hfirst entry.1 (List.mem_map_of_mem hmem)]
      exact ih hrest hmem

/-- What has no value yet is put at the end. -/
theorem insert_of_not_contains {t : Table β} {k : Document} (h : t.contains k = false) (v : β) :
    t.insert k v = ⟨t.entries ++ [(k, v)]⟩ := by
  obtain ⟨entries⟩ := t
  unfold contains at h
  unfold insert
  congr 1
  induction entries with
  | nil => rfl
  | cons entry rest ih =>
    rw [List.any_cons, Bool.or_eq_false_iff] at h
    rw [insertEntry, h.1, ih h.2]
    rfl

theorem insertAll_of_distinctKeys {t : Table β} {entries : List (Document × β)}
    (h : DistinctKeys ((t.entries ++ entries).map (·.1))) :
    t.insertAll entries = ⟨t.entries ++ entries⟩ := by
  induction entries generalizing t with
  | nil => rw [List.append_nil]; rfl
  | cons entry rest ih =>
    have hnew : t.contains entry.1 = false := by
      unfold DistinctKeys at h
      rw [List.pairwise_map, List.pairwise_append] at h
      refine List.any_eq_false.mpr fun old hold => ?_
      rw [h.2.2 old hold entry List.mem_cons_self]
      exact Bool.false_ne_true
    have hinsert := insert_of_not_contains hnew entry.2
    rw [List.append_cons] at h ⊢
    show insertAll (t.insert entry.1 entry.2) rest = _
    rw [hinsert]
    exact ih h

/-- **Entries with distinct keys are collected as they come.** -/
theorem ofList_of_distinctKeys {entries : List (Document × β)}
    (h : DistinctKeys (entries.map (·.1))) : ofList entries = ⟨entries⟩ :=
  insertAll_of_distinctKeys h

/-- A value under a key that has one already changes no key. -/
theorem keys_insert_of_contains {t : Table β} {k : Document} (h : t.contains k = true) (v : β) :
    (t.insert k v).keys = t.keys := by
  obtain ⟨entries⟩ := t
  unfold contains at h
  unfold insert keys
  induction entries with
  | nil => cases h
  | cons entry rest ih =>
    rw [insertEntry]
    split
    · rfl
    · next hne =>
      rw [List.any_cons, eq_false_of_ne_true hne] at h
      rw [List.map_cons, ih h, List.map_cons]

theorem distinctKeys_insert {t : Table β} (h : DistinctKeys t.keys) (k : Document) (v : β) :
    DistinctKeys (t.insert k v).keys := by
  cases hk : t.contains k with
  | true => rwa [keys_insert_of_contains hk]
  | false =>
    rw [insert_of_not_contains hk, keys, List.map_append]
    refine List.pairwise_append.mpr ⟨h, List.pairwise_singleton _ _, fun old hold new hnew => ?_⟩
    obtain ⟨entry, hentry, rfl⟩ := List.mem_map.mp hold
    rw [List.mem_singleton.mp hnew]
    exact eq_false_of_ne_true (List.any_eq_false.mp hk entry hentry)

/-- **However entries are collected, their keys are distinct.** -/
theorem distinctKeys_ofList (entries : List (Document × β)) : DistinctKeys (ofList entries).keys := by
  have hall : ∀ t : Table β, DistinctKeys t.keys → DistinctKeys (t.insertAll entries).keys := by
    induction entries with
    | nil => exact fun t h => h
    | cons entry rest ih => exact fun t h => ih _ (distinctKeys_insert h _ _)
  exact hall empty List.Pairwise.nil

/-! ## The order of keys -/

/-- An insertion adds its own key to those that are found. -/
theorem contains_insert (t : Table β) (k l : Document) (v : β) :
    (t.insert l v).contains k = (k.sameKey l || t.contains k) := by
  rw [contains_eq_isSome_find?, contains_eq_isSome_find?, find?_insert]
  cases k.sameKey l <;> rfl

theorem contains_congr {k l : Document} (h : k.sameKey l = true) (t : Table β) :
    t.contains k = t.contains l := by
  rw [contains_eq_isSome_find?, contains_eq_isSome_find?, find?_congr h]

/-- The keys of entries that are collected in a table come behind its own, each in the place where
it occurs first. -/
theorem keys_insertAll (t : Table β) (entries : List (Document × β)) :
    (t.insertAll entries).keys
      = t.keys
        ++ ((entries.map (·.1)).filter fun k => !t.contains k).eraseDupsBy Document.sameKey := by
  induction entries generalizing t with
  | nil => exact (List.append_nil _).symm
  | cons entry rest ih =>
    have hnew : (fun k => !(t.insert entry.1 entry.2).contains k)
        = fun k : Document => !k.sameKey entry.1 && !t.contains k := by
      funext k
      rw [contains_insert, Bool.not_or]
    show ((t.insert entry.1 entry.2).insertAll rest).keys = _
    rw [ih, hnew, List.map_cons]
    cases hk : t.contains entry.1 with
    | true =>
      rw [keys_insert_of_contains hk, List.filter_cons_of_neg (by simp [hk])]
      -- what finds the same as the key is in the table already
      refine congrArg (fun ks => t.keys ++ List.eraseDupsBy Document.sameKey ks)
        (List.filter_congr fun k _ => ?_)
      cases hsame : k.sameKey entry.1 with
      | true => rw [contains_congr hsame, hk]; rfl
      | false => rfl
    | false =>
      rw [insert_of_not_contains hk, List.filter_cons_of_pos (by simp [hk]), List.eraseDupsBy_cons,
        List.filter_filter, keys, List.map_append, List.append_assoc]
      refine congrArg (fun ks => t.keys ++ entry.1 :: List.eraseDupsBy Document.sameKey ks)
        (List.filter_congr fun k _ => ?_)
      cases k.sameKey entry.1 <;> rfl

/-- **Keys keep the order in which they occur first.** -/
theorem keys_ofList (entries : List (Document × β)) :
    (ofList entries).keys = (entries.map (·.1)).eraseDupsBy Document.sameKey := by
  rw [ofList, keys_insertAll]
  exact congrArg (List.eraseDupsBy Document.sameKey) (List.filter_eq_self.mpr fun _ _ => rfl)

/-- Of two insertions in a row under one key the second remains, in the place of the first. -/
theorem insert_insert_of_sameKey (t : Table β) {k l : Document} (h : k.sameKey l = true) (v w : β) :
    (t.insert l w).insert k v = t.insert l v := by
  obtain ⟨entries⟩ := t
  unfold insert
  congr 1
  induction entries with
  | nil => simp [insertEntry, h]
  | cons entry rest ih =>
    rw [insertEntry, insertEntry]
    cases hl : l.sameKey entry.1 with
    | true =>
      have hk : k.sameKey entry.1 = true := sameKey_trans h hl
      simp [insertEntry, hk]
    | false =>
      have hk : k.sameKey entry.1 = false := by rw [sameKey_congr h, hl]
      simp [insertEntry, hk, ih]

/-- An insertion under a key that has its place already can wait until after one under another key. -/
theorem insert_insert_comm {t : Table β} {k l : Document} (hk : t.contains k = true)
    (hkl : k.sameKey l = false) (v w : β) :
    (t.insert l w).insert k v = (t.insert k v).insert l w := by
  obtain ⟨entries⟩ := t
  unfold contains at hk
  unfold insert
  congr 1
  induction entries with
  | nil => cases hk
  | cons entry rest ih =>
    cases hke : k.sameKey entry.1 with
    | true =>
      have hle : l.sameKey entry.1 = false := by
        rw [sameKey_comm, ← sameKey_congr hke, hkl]
      simp [insertEntry, hke, hle]
    | false =>
      rw [List.any_cons, hke, Bool.false_or] at hk
      cases hle : l.sameKey entry.1 with
      | true => simp [insertEntry, hke, hle]
      | false => simp [insertEntry, hke, hle, ih hk]

/-- The same of an insertion after many under other keys. -/
theorem insertAll_insert_comm {t : Table β} {k : Document} {entries : List (Document × β)}
    (hk : t.contains k = true) (hother : ∀ entry ∈ entries, k.sameKey entry.1 = false) (v : β) :
    (t.insertAll entries).insert k v = (t.insert k v).insertAll entries := by
  induction entries generalizing t with
  | nil => rfl
  | cons entry rest ih =>
    obtain ⟨hentry, hrest⟩ := List.forall_mem_cons.mp hother
    show ((t.insert entry.1 entry.2).insertAll rest).insert k v
      = ((t.insert k v).insert entry.1 entry.2).insertAll rest
    rw [ih (contains_insert_of_contains hk _ _) hrest, insert_insert_comm hk hentry]

theorem insertAll_append (t : Table β) (entries more : List (Document × β)) :
    t.insertAll (entries ++ more) = (t.insertAll entries).insertAll more :=
  List.foldl_append

/-- Where keys are distinct, a key stands in one place. -/
theorem exists_place {entries : List (Document × β)} (hdistinct : DistinctKeys (entries.map (·.1)))
    {k : Document} (hk : (Table.mk entries).contains k = true) (v : β) :
    ∃ before l w after, entries = before ++ (l, w) :: after ∧ k.sameKey l = true
      ∧ (∀ entry ∈ after, k.sameKey entry.1 = false)
      ∧ insertEntry k v entries = before ++ (l, v) :: after := by
  induction entries with
  | nil => cases hk
  | cons entry rest ih =>
    obtain ⟨hfirst, hrest⟩ := List.pairwise_cons.mp hdistinct
    cases hke : k.sameKey entry.1 with
    | true =>
      refine ⟨[], entry.1, entry.2, rest, rfl, hke, fun other hother => ?_, by simp [insertEntry, hke]⟩
      rw [sameKey_congr hke, sameKey_comm]
      exact hfirst other.1 (List.mem_map_of_mem hother)
    | false =>
      have hinner : (Table.mk rest).contains k = true := by
        simpa [contains, hke] using hk
      obtain ⟨before, l, w, after, rfl, hl, hafter, hinsert⟩ := ih hrest hinner
      refine ⟨entry :: before, l, w, after, rfl, hl, hafter, ?_⟩
      rw [insertEntry, hke, hinsert]
      rfl

/-- **It does not matter whether an insertion is made before a table is joined to another one, or
after that.** -/
theorem insertAll_insert (t : Table β) {u : Table β} (hu : DistinctKeys u.keys) (k : Document) (v : β) :
    t.insertAll (u.insert k v).entries = (t.insertAll u.entries).insert k v := by
  cases hk : u.contains k with
  | false =>
    rw [insert_of_not_contains hk, insertAll_append]
    rfl
  | true =>
    obtain ⟨entries⟩ := u
    obtain ⟨before, l, w, after, rfl, hl, hafter, hinsert⟩ := exists_place hu hk v
    have hcontains : ((t.insertAll before).insert l w).contains k = true :=
      contains_insert_of_sameKey hl w
    calc t.insertAll (insertEntry k v (before ++ (l, w) :: after))
        = ((t.insertAll before).insert l v).insertAll after := by
          rw [hinsert, insertAll_append]
          rfl
      _ = (((t.insertAll before).insert l w).insert k v).insertAll after := by
          rw [insert_insert_of_sameKey _ hl]
      _ = (((t.insertAll before).insert l w).insertAll after).insert k v :=
          (insertAll_insert_comm hcontains hafter v).symm
      _ = (t.insertAll (before ++ (l, w) :: after)).insert k v := by
          rw [insertAll_append]
          rfl

/-- **Tables are joined in any grouping.** -/
theorem insertAll_insertAll (t : Table β) {u : Table β} (hu : DistinctKeys u.keys)
    (entries : List (Document × β)) :
    t.insertAll (u.insertAll entries).entries = (t.insertAll u.entries).insertAll entries := by
  induction entries generalizing u with
  | nil => rfl
  | cons entry rest ih =>
    show t.insertAll ((u.insert entry.1 entry.2).insertAll rest).entries
      = ((t.insertAll u.entries).insert entry.1 entry.2).insertAll rest
    rw [ih (distinctKeys_insert hu _ _), insertAll_insert t hu]

/-- What is collected in a table first is joined like the entries themselves. -/
theorem insertAll_ofList (t : Table β) (entries : List (Document × β)) :
    t.insertAll (ofList entries).entries = t.insertAll entries :=
  insertAll_insertAll t (u := empty) List.Pairwise.nil entries

/-- **Collecting entries in several tables and then in one is collecting them in one.** -/
theorem ofList_flatMap_ofList {α : Type} (entries : α → List (Document × β)) (groups : List (List α)) :
    ofList (groups.flatMap fun group => (ofList (group.flatMap entries)).entries)
      = ofList (groups.flatten.flatMap entries) := by
  have hall : ∀ t : Table β,
      t.insertAll (groups.flatMap fun group => (ofList (group.flatMap entries)).entries)
        = t.insertAll (groups.flatten.flatMap entries) := by
    induction groups with
    | nil => exact fun t => rfl
    | cons group rest ih =>
      intro t
      rw [List.flatMap_cons, insertAll_append, insertAll_ofList, ih, List.flatten_cons,
        List.flatMap_append, insertAll_append]
  exact hall empty

end SlotSafe.Table
