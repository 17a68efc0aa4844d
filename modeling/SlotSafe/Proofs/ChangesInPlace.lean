import SlotSafe.Proofs.Verdict

/-!
# Changes in place are reported position by position

A maintainer who renames variables, changes their types, adds new ones at the end or drops the last
ones has left every other variable where it was. Such an upgrade is reported as it was made: each
position is compared with itself, and what is missing at the end is deleted.

The reason is a count. Call an updated element *fresh* when no original one equals it. Whatever the
edit, a fresh element costs 3 in a pair, and alone it costs 2 and leaves an original element without
a partner or an end that is longer – so no edit is cheaper than the one in place, which meets the
bound (`cost_inPlace_le_cost`). Among edits of that cost the one in place comes first.
-/

namespace SlotSafe

namespace Alignment

variable {α : Type}

namespace Edit

/-- The number of updated elements that stand alone. -/
def insertions : {as bs : List α} → Edit as bs → Nat
  | _, _, .done => 0
  | _, _, .pair _ _ e => e.insertions
  | _, _, .insert _ e => e.insertions + 1
  | _, _, .delete _ e => e.insertions

/-- An updated element stands alone unless an original one is its partner. -/
theorem length_le_insertions {as bs : List α} (e : Edit as bs) :
    bs.length ≤ as.length + e.insertions := by
  induction e with
  | done => exact Nat.zero_le _
  | pair a b e ih => rw [insertions, List.length_cons, List.length_cons]; omega
  | insert b e ih => rw [insertions, List.length_cons]; omega
  | delete a e ih => rw [insertions, List.length_cons]; omega

/-- **What fresh elements cost in any edit.** A pair with a fresh element is never free. -/
theorem fresh_le_cost (free : α → α → Bool) (fresh : α → Bool) {as bs : List α}
    (e : Edit as bs) (hfresh : ∀ b ∈ bs, fresh b = true → ∀ a ∈ as, free a b = false) :
    3 * bs.countP fresh + 2 * as.length + e.insertions ≤ e.cost free + 2 * bs.length := by
  induction e with
  | done => exact Nat.zero_le _
  | @pair a b as bs e ih =>
    have hrest := ih (fun b' hb' hf a' ha' =>
      hfresh b' (List.mem_cons_of_mem _ hb') hf a' (List.mem_cons_of_mem _ ha'))
    rw [cost, insertions, List.countP_cons, List.length_cons, List.length_cons]
    by_cases hb : fresh b = true
    · -- a fresh element counts 3, which is what its pair costs
      rw [if_pos hb, hfresh b List.mem_cons_self hb a List.mem_cons_self]
      simp only [Bool.false_eq_true, if_false]
      omega
    · rw [if_neg hb]
      omega
  | @insert b as bs e ih =>
    have hrest := ih (fun b' hb' => hfresh b' (List.mem_cons_of_mem _ hb'))
    rw [cost, insertions, List.countP_cons, List.length_cons]
    split <;> omega
  | @delete a as bs e ih =>
    have hrest := ih (fun b' hb' hf a' ha' => hfresh b' hb' hf a' (List.mem_cons_of_mem _ ha'))
    rw [cost, insertions, List.length_cons]
    omega

/-- **What fresh elements cost in place**, when every other element is where it was. -/
theorem cost_inPlace_le_fresh (free : α → α → Bool) (fresh : α → Bool) {as bs : List α}
    (hkept : ∀ (j : Nat) (h : j < bs.length),
      (∃ h' : j < as.length, free as[j] bs[j] = true) ∨ fresh bs[j] = true) :
    (inPlace as bs).cost free + 2 * bs.length
      ≤ 3 * bs.countP fresh + 2 * as.length + (bs.length - as.length) := by
  induction as generalizing bs with
  | nil =>
    have hall : bs.countP fresh = bs.length := by
      refine List.countP_eq_length.mpr (fun b hb => ?_)
      obtain ⟨j, hj, rfl⟩ := List.mem_iff_getElem.mp hb
      obtain ⟨h', -⟩ | hf := hkept j hj
      · exact absurd h' (Nat.not_lt_zero _)
      · exact hf
    rw [inPlace, cost_insertAll, hall, List.length_nil]
    omega
  | cons a as ih =>
    cases bs with
    | nil =>
      have hrest := @ih [] (fun j h => absurd h (Nat.not_lt_zero _))
      rw [inPlace, cost, List.length_cons, List.length_nil] at *
      omega
    | cons b bs =>
      have hrest := @ih bs (fun j h => by
        simpa using hkept (j + 1) (Nat.succ_lt_succ h))
      have hhead : free a b = true ∨ fresh b = true := by
        simpa using hkept 0 (Nat.succ_pos _)
      rw [inPlace, cost, List.countP_cons, List.length_cons, List.length_cons,
        Nat.add_sub_add_right]
      obtain hfree | hf := hhead
      · rw [if_pos hfree]
        omega
      · rw [if_pos hf]
        split <;> omega

/-- **No edit is cheaper than the one in place** when every updated element is either the one that
was there or equals no original one. -/
theorem cost_inPlace_le_cost (free : α → α → Bool) {as bs : List α}
    (hkept : ∀ (j : Nat) (h : j < bs.length),
      (∃ h' : j < as.length, free as[j] bs[j] = true) ∨ ∀ a ∈ as, free a bs[j] = false)
    (e : Edit as bs) : (inPlace as bs).cost free ≤ e.cost free := by
  let fresh (b : α) : Bool := as.all (fun a => !free a b)
  have hfresh : ∀ b, fresh b = true ↔ ∀ a ∈ as, free a b = false := fun b => by
    simp [fresh]
  have hplace := cost_inPlace_le_fresh free fresh (fun j h =>
    (hkept j h).imp_right (fun hj => (hfresh bs[j]).mpr hj))
  have hbound := e.fresh_le_cost free fresh (fun b _ hb => (hfresh b).mp hb)
  have hlen := e.length_le_insertions
  omega

end Edit

end Alignment

namespace Upgrade

open SlotSafe.Alignment

variable (original updated : Layout)

/-- **Every updated variable is the one that was at its position, or equals no original one** in
name and type. -/
def ChangedInPlace : Prop :=
  ∀ (j : Nat) (h : j < updated.items.length),
    (∃ h' : j < original.items.length,
      sameField original updated original.items[j] updated.items[j] = true)
    ∨ ∀ o ∈ original.items, sameField original updated o updated.items[j] = false

instance : Decidable (ChangedInPlace original updated) :=
  inferInstanceAs (Decidable (∀ (j : Nat) (_ : j < updated.items.length), _ ∨ _))

/-- **Variables keep their types at their positions and may take fresh names, and whatever is added
at the end is fresh.** -/
structure RenamedInPlace : Prop where
  length_le : original.items.length ≤ updated.items.length
  types : ∀ (i : Nat) (h : i < original.items.length) (h' : i < updated.items.length),
    sameType original updated original.items[i] updated.items[i] = true
  names : ∀ (i : Nat) (h : i < original.items.length) (h' : i < updated.items.length),
    (original.items[i].label == updated.items[i].label) = true
    ∨ ∀ o ∈ original.items, (o.label == updated.items[i].label) = false
  added : ∀ (j : Nat) (h : j < updated.items.length), original.items.length ≤ j →
    ∀ o ∈ original.items, sameField original updated o updated.items[j] = false

/-- The step that compares a position with itself. -/
def stepOfPair (p : Item × Item) : Change Item :=
  ⟨classify original updated p.1 p.2, some p.1, some p.2⟩

/-- The step that deletes a variable. -/
def stepOfDeletion (o : Item) : Change Item := ⟨Action.delete, some o, none⟩

/-- The step that compares a position whose type has changed: a rename where the name has stayed,
and a replacement otherwise. -/
def stepOfRetyping (p : Item × Item) : Change Item :=
  ⟨if p.1.label == p.2.label then Action.rename else Action.replace, some p.1, some p.2⟩

/-- The operations of an alignment in place. -/
theorem operations_of_inPlace
    (h : (Edit.inPlace original.items updated.items).cost (sameField original updated)
      ≤ (best (classify original updated) original.items updated.items).cost) :
    operations original updated
      = (original.items.zip updated.items).map (stepOfPair original updated)
        ++ (original.items.drop updated.items.length).map stepOfDeletion := by
  rw [← isFree_classify] at h
  refine operations_of_changes original updated ((congrArg _ (best_eq_inPlace _ h)).trans
    (changes_inPlace _ _ _)) (fun c hc => ?_)
  obtain hc | hc := List.mem_append.mp hc
  · obtain ⟨p, -, rfl⟩ := List.mem_map.mp hc
    exact classify_ne_append original updated p.1 p.2
  · obtain ⟨o, -, rfl⟩ := List.mem_map.mp hc
    exact (by decide : Action.delete ≠ Action.append)

/-- A pair is reported when its types differ, as one of two kinds. -/
theorem filter_stepOfPair (ps : List (Item × Item)) :
    (ps.map (stepOfPair original updated)).filter (fun c => !Action.isSafe c.action)
      = (ps.filter (fun p => !sameType original updated p.1 p.2)).map stepOfRetyping := by
  rw [List.filter_map]
  have hsafe : (fun c : Change Item => !Action.isSafe c.action) ∘ stepOfPair original updated
      = fun p => !sameType original updated p.1 p.2 := by
    funext p
    exact congrArg not (isSafe_classify original updated p.1 p.2)
  rw [hsafe]
  refine List.map_congr_left (fun p hp => ?_)
  have htype : sameType original updated p.1 p.2 = false := by
    simpa using (List.mem_filter.mp hp).2
  rw [stepOfPair, stepOfRetyping, classify_of_not_sameType original updated htype]

variable {original updated}

/-- The alignment of layouts that were changed in place is in place. -/
theorem ChangedInPlace.cost_le (h : ChangedInPlace original updated) :
    (Edit.inPlace original.items updated.items).cost (sameField original updated)
      ≤ (best (classify original updated) original.items updated.items).cost := by
  rw [le_cost_best_iff, isFree_classify]
  exact Edit.cost_inPlace_le_cost _ h

/-- Fresh names are changes in place. -/
theorem RenamedInPlace.changedInPlace (h : RenamedInPlace original updated) :
    ChangedInPlace original updated := by
  intro j hj
  by_cases hlen : j < original.items.length
  · obtain hname | hname := h.names j hlen hj
    · refine Or.inl ⟨hlen, ?_⟩
      rw [sameField, hname, h.types j hlen hj]
      rfl
    · refine Or.inr (fun o ho => ?_)
      rw [sameField, hname o ho, Bool.false_and]
  · exact Or.inr (h.added j hj (Nat.le_of_not_lt hlen))

/-- **Changes in place are reported position by position.** Every position is compared with itself,
and what the updated layout lacks at its end is deleted. If it lacks nothing, exactly the positions
whose types differ are unsafe, and so an upgrade that takes fresh names and adds fresh variables is
safe. -/
theorem operations_of_changedInPlace (original updated : Layout) :
    (ChangedInPlace original updated →
      operations original updated
        = (original.items.zip updated.items).map (stepOfPair original updated)
          ++ (original.items.drop updated.items.length).map stepOfDeletion
      ∧ (original.items.length ≤ updated.items.length →
        unsafeSteps original updated
          = ((original.items.zip updated.items).filter
              (fun p => !sameType original updated p.1 p.2)).map stepOfRetyping))
    ∧ (RenamedInPlace original updated → check original updated = .ok ()) := by
  refine ⟨fun h => ?_, fun h => ?_⟩
  · have hops := operations_of_inPlace original updated h.cost_le
    refine ⟨hops, fun hlen => ?_⟩
    rw [unsafeSteps, hops, List.drop_eq_nil_of_le hlen, List.map_nil, List.append_nil]
    exact filter_stepOfPair original updated _
  · rw [check_eq_ok_iff_inPlace]
    refine ⟨h.length_le, ?_, h.changedInPlace.cost_le⟩
    rw [forall_mem_zip_iff (P := fun o u => sameType original updated o u = true)]
    exact h.types

/-- The fee becomes a rate of another type and the last variable is dropped, or one variable takes
another name and one is added. -/
theorem operations_of_fee_replaced :
    ChangedInPlace (.ofFields [("owner", "address"), ("fee", "uint256"), ("paused", "bool")])
      (.ofFields [("owner", "address"), ("rate", "uint128")])
    ∧ (operations (.ofFields [("owner", "address"), ("fee", "uint256"), ("paused", "bool")])
      (.ofFields [("owner", "address"), ("rate", "uint128")])).map (·.action)
        = [Action.equal, Action.replace, Action.delete]
    ∧ RenamedInPlace (.ofFields [("owner", "address"), ("fee", "uint256")])
      (.ofFields [("admin", "address"), ("fee", "uint256"), ("cap", "uint256")])
    ∧ check (.ofFields [("owner", "address"), ("fee", "uint256")])
      (.ofFields [("admin", "address"), ("fee", "uint256"), ("cap", "uint256")]) = .ok () := by
  have hchanged : ChangedInPlace
      (.ofFields [("owner", "address"), ("fee", "uint256"), ("paused", "bool")])
      (.ofFields [("owner", "address"), ("rate", "uint128")]) := by decide
  have hrenamed : RenamedInPlace (.ofFields [("owner", "address"), ("fee", "uint256")])
      (.ofFields [("admin", "address"), ("fee", "uint256"), ("cap", "uint256")]) :=
    ⟨by decide, by decide, by decide, by decide⟩
  refine ⟨hchanged, ?_, hrenamed, (operations_of_changedInPlace _ _).2 hrenamed⟩
  rw [((operations_of_changedInPlace _ _).1 hchanged).1]
  decide

end Upgrade

end SlotSafe
