import SlotSafe.Proofs.ChangesInPlace

/-!
# Variables added at the end

Variables added behind all others overlap no slot, so that a verdict should not depend on them. It
does, since they are left out only after the layouts have been aligned: until then each of them can
be the partner of an original variable that would be deleted otherwise, and a pair of two variables
costs 1 less than a deletion and an insertion. **An addition of fresh variables turns a safe upgrade
into an unsafe one exactly when some alignment that deletes the last variables comes closer to the
cost in place than there are such pairs** (`check_addition_iff`).

That takes four changed names at least: an alignment that saves fewer of them and costs no less has
as many deletions to spare as can be paired. Four are enough (`check_of_limit_added`).
-/

namespace SlotSafe

namespace Alignment

variable {α : Type}

namespace Edit

/-- **An edit of two sequences one after the other is two edits one after the other**: what is
deleted between them belongs to the first. -/
theorem exists_split (free : α → α → Bool) {as bs cs : List α} (e : Edit as (bs ++ cs)) :
    ∃ (kept lost : List α) (f : Edit kept bs) (g : Edit lost cs),
      as = kept ++ lost ∧ e.cost free = f.cost free + g.cost free := by
  generalize hxs : bs ++ cs = xs at e
  induction e generalizing bs with
  | done =>
    obtain ⟨rfl, rfl⟩ := List.append_eq_nil_iff.mp hxs
    exact ⟨[], [], .done, .done, rfl, rfl⟩
  | @pair a b as xs e ih =>
    cases bs with
    | nil =>
      obtain rfl := hxs
      exact ⟨[], a :: as, .done, .pair a b e, rfl, (Nat.zero_add _).symm⟩
    | cons b' bs =>
      obtain ⟨rfl, hrest⟩ := List.cons.inj hxs
      obtain ⟨kept, lost, f, g, rfl, hcost⟩ := ih hrest
      exact ⟨a :: kept, lost, .pair a b' f, g, rfl, by rw [cost, cost, hcost, Nat.add_assoc]⟩
  | @insert b as xs e ih =>
    cases bs with
    | nil =>
      obtain rfl := hxs
      exact ⟨[], as, .done, .insert b e, rfl, (Nat.zero_add _).symm⟩
    | cons b' bs =>
      obtain ⟨rfl, hrest⟩ := List.cons.inj hxs
      obtain ⟨kept, lost, f, g, rfl, hcost⟩ := ih hrest
      exact ⟨kept, lost, .insert b' f, g, rfl, by rw [cost, cost, hcost, Nat.add_assoc]⟩
  | delete a e ih =>
    obtain ⟨kept, lost, f, g, rfl, hcost⟩ := ih hxs
    exact ⟨a :: kept, lost, .delete a f, g, rfl, by rw [cost, cost, hcost, Nat.add_assoc]⟩

/-- What is added at the end costs 2 for each element in place. -/
theorem cost_inPlace_append_right (free : α → α → Bool) {as bs : List α}
    (hlen : as.length ≤ bs.length) (cs : List α) :
    (inPlace as (bs ++ cs)).cost free = (inPlace as bs).cost free + 2 * cs.length := by
  induction as generalizing bs with
  | nil =>
    rw [inPlace, inPlace, cost_insertAll, cost_insertAll, List.length_append, Nat.mul_add]
  | cons a as ih =>
    cases bs with
    | nil => exact absurd hlen (Nat.not_succ_le_zero _)
    | cons b bs =>
      rw [List.cons_append, inPlace, inPlace, cost, cost, ih (Nat.le_of_succ_le_succ hlen),
        Nat.add_assoc]

/-- In place a fresh element costs 1 less than if its partner were deleted and it were inserted. -/
theorem cost_inPlace_of_fresh {free : α → α → Bool} {as cs : List α}
    (hfresh : ∀ a ∈ as, ∀ c ∈ cs, free a c = false) :
    (inPlace as cs).cost free + min as.length cs.length = 2 * as.length + 2 * cs.length := by
  have hcount : (as.zip cs).countP (fun p => !free p.1 p.2) = min as.length cs.length := by
    rw [← List.length_zip]
    refine List.countP_eq_length.mpr (fun p hp => ?_)
    obtain ⟨ha, hc⟩ := List.of_mem_zip hp
    rw [hfresh p.1 ha p.2 hc]
    rfl
  rw [cost_inPlace, hcount]
  omega

/-- **What fresh elements at the end make cheaper**: a bound holds of all edits with them exactly
when it holds, by one more for each pair there can be, of all edits without them that delete the
last original elements. -/
theorem forall_le_cost_append_iff {free : α → α → Bool} {as cs : List α}
    (hfresh : ∀ a ∈ as, ∀ c ∈ cs, free a c = false) (bs : List α) (k : Nat) :
    (∀ e : Edit as (bs ++ cs), k + 2 * cs.length ≤ e.cost free) ↔
      ∀ kept lost : List α, as = kept ++ lost → ∀ e : Edit kept bs,
        k + min lost.length cs.length ≤ e.cost free + 2 * lost.length := by
  constructor
  · rintro h kept lost rfl e
    have hlost := cost_inPlace_of_fresh (fun a ha => hfresh a (List.mem_append_right _ ha))
    have hedit := h (e.append (inPlace lost cs))
    rw [cost_append] at hedit
    omega
  · intro h e
    obtain ⟨kept, lost, f, g, rfl, hcost⟩ := e.exists_split free
    have hfresh' : ∀ a ∈ lost, ∀ c ∈ cs, free a c = false :=
      fun a ha => hfresh a (List.mem_append_right _ ha)
    have hlost := cost_inPlace_of_fresh hfresh'
    have hplace := cost_inPlace_le_cost free
      (fun j hj => Or.inr (fun a ha => hfresh' a ha _ (List.getElem_mem hj))) g
    have hedit := h kept lost rfl f
    omega

/-- What an edit costs, by the numbers of its pairs that are not free, its deletions and its
insertions. -/
theorem exists_cost_eq (free : α → α → Bool) {as bs : List α} (e : Edit as bs) :
    ∃ changed deleted inserted : Nat,
      e.cost free = 3 * changed + 2 * deleted + 2 * inserted
        ∧ as.length + inserted = bs.length + deleted := by
  induction e with
  | done => exact ⟨0, 0, 0, rfl, rfl⟩
  | pair a b e ih =>
    obtain ⟨changed, deleted, inserted, hcost, hlen⟩ := ih
    refine ⟨(if free a b then 0 else 1) + changed, deleted, inserted, ?_, ?_⟩
    · rw [cost, hcost]
      split <;> omega
    · rw [List.length_cons, List.length_cons]
      omega
  | insert b e ih =>
    obtain ⟨changed, deleted, inserted, hcost, hlen⟩ := ih
    exact ⟨changed, deleted, inserted + 1, by rw [cost, hcost]; omega,
      by rw [List.length_cons]; omega⟩
  | delete a e ih =>
    obtain ⟨changed, deleted, inserted, hcost, hlen⟩ := ih
    exact ⟨changed, deleted + 1, inserted, by rw [cost, hcost]; omega,
      by rw [List.length_cons]; omega⟩

end Edit

end Alignment

namespace Upgrade

open SlotSafe.Alignment

/-- **Fresh variables are added at the end**: their fields occur nowhere in the original layout. The
other variables keep the labels of their types, and there are no fewer of them than originally. -/
structure Addition (original updated extended : Layout) (added : List Item) : Prop where
  items : extended.items = updated.items ++ added
  types : ∀ u ∈ updated.items, extended.labelOf u = updated.labelOf u
  size_le : original.size ≤ updated.size
  fresh : ∀ o ∈ original.items, ∀ u ∈ added, sameField original extended o u = false

namespace Addition

variable {original updated extended : Layout} {added : List Item}

theorem sameType_eq (h : Addition original updated extended added) (o : Item) {u : Item}
    (hu : u ∈ updated.items) :
    sameType original extended o u = sameType original updated o u := by
  rw [sameType, sameType, h.types u hu]

theorem sameField_eq_of_mem (h : Addition original updated extended added) (o : Item) {u : Item}
    (hu : u ∈ updated.items) :
    sameField original extended o u = sameField original updated o u := by
  rw [sameField, sameField, h.sameType_eq o hu]

/-- The added variables stand at no position of the original layout. -/
theorem zip_eq (h : Addition original updated extended added) :
    original.items.zip extended.items = original.items.zip updated.items := by
  have htake {xs : List Item} (hxs : original.items.length ≤ xs.length) :
      original.items.zip xs = original.items.zip (xs.take original.items.length) := by
    rw [List.zip_eq_zip_take_min, Nat.min_eq_left hxs, List.take_length]
  have hlen : original.items.length ≤ updated.items.length := h.size_le
  rw [h.items, htake hlen, htake, List.take_append_of_le_length hlen]
  rw [List.length_append]
  exact Nat.le_add_right_of_le hlen

theorem forall_sameType_iff (h : Addition original updated extended added) :
    (∀ p ∈ original.items.zip extended.items, sameType original extended p.1 p.2 = true) ↔
      ∀ p ∈ original.items.zip updated.items, sameType original updated p.1 p.2 = true := by
  rw [h.zip_eq]
  exact forall₂_congr (fun p hp => by rw [h.sameType_eq p.1 (List.of_mem_zip hp).2])

/-- The cost in place counts the added variables. -/
theorem cost_inPlace_eq (h : Addition original updated extended added) :
    (Edit.inPlace original.items extended.items).cost (sameField original extended)
      = (Edit.inPlace original.items updated.items).cost (sameField original updated)
        + 2 * added.length := by
  rw [h.items, Edit.cost_inPlace_append_right _ h.size_le]
  exact congrArg (· + _) (Edit.cost_congr _ (fun o _ u hu => h.sameField_eq_of_mem o hu))

/-- **When nothing is cheaper than the edit in place with the added variables**: no alignment
without them that deletes the last variables comes too close. -/
theorem cost_inPlace_le_iff (h : Addition original updated extended added) :
    (Edit.inPlace original.items extended.items).cost (sameField original extended)
        ≤ (best (classify original extended) original.items extended.items).cost ↔
      ∀ kept lost : List Item, original.items = kept ++ lost → ∀ e : Edit kept updated.items,
        (Edit.inPlace original.items updated.items).cost (sameField original updated)
            + min lost.length added.length
          ≤ e.cost (sameField original updated) + 2 * lost.length := by
  rw [le_cost_best_iff, isFree_classify, h.cost_inPlace_eq, h.items,
    Edit.forall_le_cost_append_iff h.fresh]
  refine forall₂_congr (fun kept lost => forall₂_congr (fun hsplit e => ?_))
  rw [e.cost_congr (fun o _ u hu => h.sameField_eq_of_mem o hu)]

/-- Adding nothing is an addition. -/
theorem refl (h : original.size ≤ updated.size) : Addition original updated updated [] :=
  ⟨(List.append_nil _).symm, fun _ _ => rfl, h, fun _ _ _ hu => absurd hu List.not_mem_nil⟩

/-- **When an upgrade is safe with the added variables**: it is safe without them, and no alignment
that deletes the last variables comes too close. -/
theorem check_eq_ok_iff (h : Addition original updated extended added) :
    check original extended = .ok () ↔
      check original updated = .ok () ∧
        ∀ kept lost : List Item, original.items = kept ++ lost → ∀ e : Edit kept updated.items,
          3 * renamings original updated + 2 * (updated.size - original.size)
              + min lost.length added.length
            ≤ e.cost (sameField original updated) + 2 * lost.length := by
  have hplace := cost_inPlace_of_sameType original updated h.size_le
  rw [check_eq_ok_iff_inPlace, check_eq_ok_iff_inPlace, h.forall_sameType_iff,
    h.cost_inPlace_le_iff]
  constructor
  · rintro ⟨-, htypes, hcost⟩
    refine ⟨⟨h.size_le, htypes, ?_⟩, fun kept lost hsplit e => ?_⟩
    · -- an alignment that deletes nothing at the end is one without the added variables
      rw [le_cost_best_iff, isFree_classify]
      intro e
      have hall := hcost original.items [] (List.append_nil _).symm e
      rwa [List.length_nil, Nat.zero_min] at hall
    · rw [Layout.size, Layout.size, ← hplace htypes]
      exact hcost kept lost hsplit e
  · rintro ⟨⟨-, htypes, -⟩, hcost⟩
    refine ⟨?_, htypes, fun kept lost hsplit e => ?_⟩
    · rw [h.items, List.length_append]
      exact Nat.le_add_right_of_le h.size_le
    · rw [hplace htypes]
      exact hcost kept lost hsplit e

end Addition

/-- **When added variables are ignored.** An upgrade is safe with fresh variables at its end exactly
when it is safe without them and no alignment that deletes the last variables costs less than the
one in place and 1 for each of them that an added one could be paired with. So the added variables
do not matter where three names change at most. -/
theorem check_addition_iff {original updated extended : Layout} {added : List Item}
    (h : Addition original updated extended added) :
    (check original extended = .ok () ↔
      check original updated = .ok () ∧
        ∀ kept lost : List Item, original.items = kept ++ lost → ∀ e : Edit kept updated.items,
          3 * renamings original updated + 2 * (updated.size - original.size)
              + min lost.length added.length
            ≤ e.cost (sameField original updated) + 2 * lost.length)
    ∧ (renamings original updated ≤ 3 →
      (check original extended = .ok () ↔ check original updated = .ok ())) := by
  refine ⟨h.check_eq_ok_iff, fun hfew => ?_⟩
  refine h.check_eq_ok_iff.trans (and_iff_left_of_imp (fun hcheck kept lost hsplit e => ?_))
  have hbound := ((Addition.refl h.size_le).check_eq_ok_iff.mp hcheck).2 kept lost hsplit e
  obtain ⟨changed, deleted, inserted, hcost, hlen⟩ :=
    e.exists_cost_eq (sameField original updated)
  have hsize : original.size = kept.length + lost.length := by
    rw [Layout.size, hsplit, List.length_append]
  have hsize_le := h.size_le
  -- each deletion has an insertion beside it, and the two cost 4 where a change costs 3, so there
  -- is 1 to spare for each deletion as long as three changes are all that can be saved
  rw [List.length_nil, Nat.min_zero, hcost] at hbound
  rw [hcost]
  simp only [Layout.size] at hbound hsize hsize_le ⊢
  omega

/-- Three variables take other names, and a fourth one is added. -/
theorem check_of_three_renamed :
    Addition (.ofFields [("fee", "uint256"), ("cap", "uint256"), ("rate", "uint256")])
      (.ofFields [("least", "uint256"), ("most", "uint256"), ("share", "uint256")])
      (.ofFields [("least", "uint256"), ("most", "uint256"), ("share", "uint256"),
        ("limit", "uint256")])
      (Layout.ofFields [("limit", "uint256")]).items
    ∧ renamings (.ofFields [("fee", "uint256"), ("cap", "uint256"), ("rate", "uint256")])
      (.ofFields [("least", "uint256"), ("most", "uint256"), ("share", "uint256")]) ≤ 3
    ∧ check (.ofFields [("fee", "uint256"), ("cap", "uint256"), ("rate", "uint256")])
      (.ofFields [("least", "uint256"), ("most", "uint256"), ("share", "uint256"),
        ("limit", "uint256")]) = .ok () := by
  have h : Addition (.ofFields [("fee", "uint256"), ("cap", "uint256"), ("rate", "uint256")])
      (.ofFields [("least", "uint256"), ("most", "uint256"), ("share", "uint256")])
      (.ofFields [("least", "uint256"), ("most", "uint256"), ("share", "uint256"),
        ("limit", "uint256")])
      (Layout.ofFields [("limit", "uint256")]).items := by
    refine ⟨rfl, ?_, by decide, by decide⟩
    simp [Layout.ofFields, Layout.labelOf]
    rfl
  have hfew : renamings (.ofFields [("fee", "uint256"), ("cap", "uint256"), ("rate", "uint256")])
      (.ofFields [("least", "uint256"), ("most", "uint256"), ("share", "uint256")]) ≤ 3 := by
    decide
  exact ⟨h, hfew, ((check_addition_iff h).2 hfew).mpr rfl⟩

/-- **An addition that is not ignored.** Three names are new and the first variable moves to the
fourth place, which passes for four new names. With one more variable at the end the upgrade fails:
to follow the variable that has moved then deletes two others where it deleted three. -/
theorem check_of_limit_added :
    Addition
      (.ofFields [("fee", "uint256"), ("cap", "uint256"), ("rate", "uint256"), ("end", "uint256")])
      (.ofFields [("least", "uint256"), ("most", "uint256"), ("share", "uint256"),
        ("fee", "uint256")])
      (.ofFields [("least", "uint256"), ("most", "uint256"), ("share", "uint256"),
        ("fee", "uint256"), ("limit", "uint256")])
      (Layout.ofFields [("limit", "uint256")]).items
    ∧ check
      (.ofFields [("fee", "uint256"), ("cap", "uint256"), ("rate", "uint256"), ("end", "uint256")])
      (.ofFields [("least", "uint256"), ("most", "uint256"), ("share", "uint256"),
        ("fee", "uint256")]) = .ok ()
    ∧ check
      (.ofFields [("fee", "uint256"), ("cap", "uint256"), ("rate", "uint256"), ("end", "uint256")])
      (.ofFields [("least", "uint256"), ("most", "uint256"), ("share", "uint256"),
        ("fee", "uint256"), ("limit", "uint256")]) ≠ .ok () := by
  refine ⟨⟨rfl, ?_, by decide, by decide⟩, rfl, ?_⟩
  · simp [Layout.ofFields, Layout.labelOf]
    rfl
  · rw [Ne, check_eq_ok_iff_unsafeSteps]
    decide

end Upgrade

end SlotSafe
