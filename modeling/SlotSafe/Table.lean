import SlotSafe.Document

/-!
# Ordered tables

A table maps keys to values and keeps its entries in the order in which the keys were first
inserted; a second insertion under a key replaces the value and leaves the entry in its place. Keys
are documents and are found by `Document.key?`, so the number one and the truth value true name one
entry, and a key that equals nothing is never found.

The laws below say where an entry is found after an insertion, and that insertions never lose a key.
-/

namespace SlotSafe

/-- An ordered table. -/
structure Table (β : Type) where
  entries : List (Document × β)

namespace Table

variable {β γ : Type}

/-- The table without entries. -/
def empty : Table β := ⟨[]⟩

/-- The value under a key. -/
def find? (t : Table β) (k : Document) : Option β :=
  (t.entries.find? fun entry => k.sameKey entry.1).map (·.2)

/-- Whether a key has a value. -/
def contains (t : Table β) (k : Document) : Bool := t.entries.any fun entry => k.sameKey entry.1

/-- Puts a value under a key: in the place of the old value if there is one, else at the end. -/
def insertEntry (k : Document) (v : β) : List (Document × β) → List (Document × β)
  | [] => [(k, v)]
  | entry :: rest =>
    if k.sameKey entry.1 then (entry.1, v) :: rest else entry :: insertEntry k v rest

/-- Puts a value under a key: in the place of the old value if there is one, else at the end. -/
def insert (t : Table β) (k : Document) (v : β) : Table β := ⟨insertEntry k v t.entries⟩

/-- Inserts entries one after the other. -/
def insertAll (t : Table β) (entries : List (Document × β)) : Table β :=
  entries.foldl (fun t entry => t.insert entry.1 entry.2) t

/-- The table made by inserting entries one after the other. -/
def ofList (entries : List (Document × β)) : Table β := empty.insertAll entries

/-- The keys, in order. -/
def keys (t : Table β) : List Document := t.entries.map (·.1)

/-- Changes every value. -/
def mapValues (f : β → γ) (t : Table β) : Table γ :=
  ⟨t.entries.map fun entry => (entry.1, f entry.2)⟩

/-- Two tables are equal when they have as many entries, and each entry of the first has an equal
one in the second, in any order. -/
def equal (same : β → β → Bool) (t u : Table β) : Bool :=
  t.entries.length == u.entries.length
    && t.entries.all fun entry => match u.find? entry.1 with
      | some v => same entry.2 v
      | none => false

/-! ## Where entries are found -/

theorem contains_eq_isSome_find? (t : Table β) (k : Document) :
    t.contains k = (t.find? k).isSome := by
  simp only [contains, find?]
  induction t.entries with
  | nil => rfl
  | cons entry rest ih => by_cases h : k.sameKey entry.1 <;> simp_all

/-- A key is found by another exactly when both have one and the same key. -/
theorem sameKey_iff {a b : Document} :
    a.sameKey b = true ↔ ∃ k, a.key? = some k ∧ b.key? = some k := by
  unfold Document.sameKey
  split
  · next k l hk hl =>
    simp only [beq_iff_eq, hk, hl, Option.some.injEq, exists_eq_left']
    exact eq_comm
  · next h =>
    refine ⟨fun h' => by simp at h', ?_⟩
    rintro ⟨k, ha, hb⟩
    exact absurd hb (h _ _ ha)

theorem sameKey_trans {a b c : Document} (h : a.sameKey b = true) (h' : b.sameKey c = true) :
    a.sameKey c = true := by
  obtain ⟨k, ha, hb⟩ := sameKey_iff.1 h
  obtain ⟨l, hb', hc⟩ := sameKey_iff.1 h'
  rw [hb] at hb'
  cases hb'
  exact sameKey_iff.2 ⟨_, ha, hc⟩

theorem sameKey_symm {a b : Document} (h : a.sameKey b = true) : b.sameKey a = true := by
  obtain ⟨k, ha, hb⟩ := sameKey_iff.1 h
  exact sameKey_iff.2 ⟨k, hb, ha⟩

/-- An insertion leaves every key in the table. -/
theorem contains_insert_of_contains {t : Table β} {k : Document} (h : t.contains k = true)
    (l : Document) (v : β) : (t.insert l v).contains k = true := by
  obtain ⟨entries⟩ := t
  simp only [contains, insert] at h ⊢
  induction entries with
  | nil => simp at h
  | cons entry rest ih =>
    unfold insertEntry
    split
    · simpa using h
    · rw [List.any_cons, Bool.or_eq_true] at h ⊢
      exact h.imp_right ih

/-- What has been inserted is found by every document of the same key. -/
theorem contains_insert_of_sameKey {t : Table β} {k l : Document} (h : k.sameKey l = true) (v : β) :
    (t.insert l v).contains k = true := by
  obtain ⟨entries⟩ := t
  simp only [contains, insert]
  induction entries with
  | nil => simpa [insertEntry] using h
  | cons entry rest ih =>
    unfold insertEntry
    split
    · next hl => simp [sameKey_trans h hl]
    · simp [ih]

theorem contains_insertAll_of_contains {t : Table β} {k : Document} (h : t.contains k = true)
    (entries : List (Document × β)) : (t.insertAll entries).contains k = true := by
  unfold insertAll
  induction entries generalizing t with
  | nil => exact h
  | cons entry rest ih => exact ih (contains_insert_of_contains h _ _)

/-- Whatever key the inserted entries have is found afterwards. -/
theorem contains_insertAll_of_any {t : Table β} {k : Document} {entries : List (Document × β)}
    (h : (entries.any fun entry => k.sameKey entry.1) = true) :
    (t.insertAll entries).contains k = true := by
  induction entries generalizing t with
  | nil => simp at h
  | cons entry rest ih =>
    simp only [List.any_cons, Bool.or_eq_true] at h
    rcases h with h | h
    · exact contains_insertAll_of_contains (contains_insert_of_sameKey h _) rest
    · exact ih h

end Table

end SlotSafe
