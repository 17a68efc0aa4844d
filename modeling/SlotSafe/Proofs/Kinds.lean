import SlotSafe.Proofs.SourceLines

/-!
# Kinds of documents

A document is asked for a member, run through, or looked up, and each of these needs a document of a
certain kind. Whether it is one is told here by predicates that go down the way on which a document
is looked into: to what stands under a name (`allAt`), to what it runs through (`allItems`), and to
the values of a map (`allValues`). **Where such a predicate holds, what is asked for is found**
(`memberOr_of_isMap`, `exists_elements`, `exists_entries`).
-/

namespace SlotSafe

namespace Document

/-- Whether what stands under a name, if anything does, has a property. -/
def allAt (d : Document) (name : String) (p : Document → Bool) : Bool := (d.at? name).all p

/-- Whether a document runs through documents that have a property. -/
def allItems (d : Document) (p : Document → Bool) : Bool :=
  match d.elements with
  | .ok items => items.all p
  | .error _ => false

/-- Whether a document is a map whose values have a property. -/
def allValues (d : Document) (p : Document → Bool) : Bool :=
  match d.entries with
  | .ok entries => entries.all fun entry => p entry.2
  | .error _ => false

variable {d v : Document} {name : String} {p : Document → Bool}

theorem of_allAt (h : d.allAt name p = true) (hv : d.at? name = some v) : p v = true := by
  unfold allAt at h
  rw [hv] at h
  exact h

theorem allAt_of_forall (h : ∀ v, d.at? name = some v → p v = true) : d.allAt name p = true := by
  unfold allAt
  cases hat : d.at? name with
  | none => rfl
  | some v => exact h v hat

theorem allAt_mono {q : Document → Bool} (h : d.allAt name p = true)
    (hpq : ∀ v, p v = true → q v = true) : d.allAt name q = true :=
  allAt_of_forall fun _ hv => hpq _ (of_allAt h hv)

/-- What stands under a name, or something else that has the property. -/
theorem getD_of_allAt (h : d.allAt name p = true) (absent : Document) (habsent : p absent = true) :
    p ((d.at? name).getD absent) = true := by
  cases hat : d.at? name with
  | none => exact habsent
  | some v => exact of_allAt h hat

/-- What stands under a name, or an empty map if it says nothing. -/
theorem setOrRecord_of_allAt (h : d.allAt name (fun v => !v.isSet || p v) = true)
    (hempty : p (.record []) = true) :
    p (if ((d.at? name).getD .null).isSet then (d.at? name).getD .null else .record []) = true := by
  have hgiven := getD_of_allAt h .null rfl
  split
  · next hset => rwa [hset, Bool.not_true, Bool.false_or] at hgiven
  · exact hempty

theorem exists_elements (h : d.allItems p = true) :
    ∃ items, d.elements = .ok items ∧ ∀ item ∈ items, p item = true := by
  unfold allItems at h
  split at h
  · next items hitems => exact ⟨items, hitems, List.all_eq_true.mp h⟩
  · cases h

theorem allItems_mono {q : Document → Bool} (h : d.allItems p = true)
    (hpq : ∀ v, p v = true → q v = true) : d.allItems q = true := by
  obtain ⟨items, hitems, hall⟩ := exists_elements h
  unfold allItems
  rw [hitems]
  exact List.all_eq_true.mpr fun item hitem => hpq item (hall item hitem)

theorem exists_entries (h : d.allValues p = true) :
    ∃ entries, d.entries = .ok entries ∧ ∀ entry ∈ entries, p entry.2 = true := by
  unfold allValues at h
  split at h
  · next entries hentries => exact ⟨entries, hentries, List.all_eq_true.mp h⟩
  · cases h

theorem isSome_table?_of_isMap (h : d.isMap = true) : d.table?.isSome = true := by
  unfold isMap at h
  unfold table?
  cases hd : d.unrolled with
  | map id entries => rfl
  | _ => simp [hd] at h

/-- **A map is asked for a member** with success. -/
theorem memberOr_of_isMap (h : d.isMap = true) (name : String) (absent : Document) :
    d.memberOr name absent = .ok ((d.at? name).getD absent) :=
  memberOr_of_isSome (isSome_table?_of_isMap h) name absent

end Document

namespace Extraction

/-- Whether a node of a contract is told from others, and what it says of its type can be looked
up. -/
def isNode (node : Document) : Bool :=
  node.isMap && node.allAt "typeDescriptions" fun given => !given.isSet || given.isMap

end Extraction

end SlotSafe
