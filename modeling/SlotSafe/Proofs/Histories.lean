import Mathlib.Data.List.Chain
import Mathlib.Data.List.Infix
import SlotSafe.Proofs.Fields

/-!
# Upgrade histories

A contract is upgraded more than once, and each check compares a version with the one before it. To
pass a check is not transitive: two names that are replaced by fresh ones and come back in the other
order pass two checks, and the check of the last version against the first one fails. What every
step does keep is a matter of types only. **The labels of the types, in the order of the slots, are
a start of the labels after the upgrade** (`typeLabels_prefix_of_check`), and to be a start is
transitive, so that no version of a history ever reads an occupied slot as another type
(`labelOf_eq_of_history`).
-/

namespace SlotSafe

/-- The labels of the types of the variables, in the order of their slots. -/
def Layout.typeLabels (l : Layout) : List Document := l.items.map l.labelOf

namespace Upgrade

/-- **One safe upgrade** leaves the type of every variable as it was, and adds types at the end at
most. -/
theorem typeLabels_prefix_of_check {original updated : Layout}
    (horiginal : ∀ o ∈ original.items, (original.labelOf o).isText = true)
    (hupdated : ∀ u ∈ updated.items, (updated.labelOf u).isText = true)
    (h : check original updated = .ok ()) : original.typeLabels <+: updated.typeLabels := by
  obtain ⟨hlen, htypes, -⟩ := (check_eq_ok_iff_inPlace original updated).mp h
  rw [forall_mem_zip_iff (P := fun o u => sameType original updated o u = true)] at htypes
  have hlen' : original.typeLabels.length ≤ updated.typeLabels.length := by
    rw [Layout.typeLabels, Layout.typeLabels, List.length_map, List.length_map]
    exact hlen
  refine List.prefix_iff_getElem.mpr ⟨hlen', fun p hp => ?_⟩
  have ho : p < original.items.length := List.length_map original.labelOf ▸ hp
  have hu : p < updated.items.length := ho.trans_le hlen
  have hequal : original.labelOf original.items[p] = updated.labelOf updated.items[p] :=
    eq_of_beq_of_isText (horiginal _ (List.getElem_mem ho)) (hupdated _ (List.getElem_mem hu))
      (htypes p ho hu)
  simpa [Layout.typeLabels] using hequal

/-- A history in which each version is a safe upgrade of the one before it, and all labels of types
are texts. -/
structure SafeHistory (history : List Layout) : Prop where
  safe : ∀ (i : Nat) (h : i + 1 < history.length), check history[i] history[i + 1] = .ok ()
  texts : ∀ l ∈ history, ∀ item ∈ l.items, (l.labelOf item).isText = true

/-- **The types of a version are a start of those of any later one.** -/
theorem SafeHistory.typeLabels_prefix {history : List Layout} (h : SafeHistory history) {i j : Nat}
    (hij : i ≤ j) (hj : j < history.length) :
    history[i].typeLabels <+: history[j].typeLabels := by
  induction j, hij using Nat.le_induction with
  | base => exact List.prefix_refl _
  | succ j hij ih =>
    have hprefix := ih (Nat.lt_of_succ_lt hj)
    refine hprefix.trans (typeLabels_prefix_of_check ?_ ?_ (h.safe j hj))
    · exact h.texts _ (List.getElem_mem _)
    · exact h.texts _ (List.getElem_mem _)

/-- **No version of a history reads an occupied slot as another type.** Variables are never lost,
and the label of the type at a position is the same in all versions that have the position. -/
theorem labelOf_eq_of_history {history : List Layout} (h : SafeHistory history) {i j : Nat}
    (hij : i ≤ j) (hj : j < history.length) :
    history[i].size ≤ history[j].size ∧
      ∀ (p : Nat) (hp : p < history[i].items.length) (hp' : p < history[j].items.length),
        history[i].labelOf history[i].items[p] = history[j].labelOf history[j].items[p] := by
  have hprefix := h.typeLabels_prefix hij hj
  refine ⟨?_, fun p hp hp' => ?_⟩
  · simpa [Layout.typeLabels, Layout.size] using hprefix.length_le
  · have hlabel : p < history[i].typeLabels.length := (List.length_map _).symm ▸ hp
    simpa [Layout.typeLabels] using hprefix.getElem hlabel

/-- Two names are replaced, and come back in the other order before a third one. The last version is
no safe upgrade of the first, but its types are those of the first. -/
theorem labelOf_eq_of_names_exchanged :
    SafeHistory
      [.ofFields [("fee", "uint256"), ("owner", "uint256")],
        .ofFields [("rate", "uint256"), ("admin", "uint256")],
        .ofFields [("owner", "uint256"), ("fee", "uint256"), ("paused", "bool")]]
    ∧ check (.ofFields [("fee", "uint256"), ("owner", "uint256")])
        (.ofFields [("owner", "uint256"), ("fee", "uint256"), ("paused", "bool")]) ≠ .ok ()
    ∧ ∀ (p : Nat)
        (hp : p < (Layout.ofFields [("fee", "uint256"), ("owner", "uint256")]).items.length)
        (hp' : p < (Layout.ofFields
          [("owner", "uint256"), ("fee", "uint256"), ("paused", "bool")]).items.length),
      (Layout.ofFields [("fee", "uint256"), ("owner", "uint256")]).labelOf
          (Layout.ofFields [("fee", "uint256"), ("owner", "uint256")]).items[p]
        = (Layout.ofFields [("owner", "uint256"), ("fee", "uint256"), ("paused", "bool")]).labelOf
          (Layout.ofFields [("owner", "uint256"), ("fee", "uint256"), ("paused", "bool")]).items[p]
    := by
  have hreplaced : check (.ofFields [("fee", "uint256"), ("owner", "uint256")])
      (.ofFields [("rate", "uint256"), ("admin", "uint256")]) = .ok () :=
    (check_eq_ok_iff_unsafeSteps _ _).mpr (by decide)
  have hback : check (.ofFields [("rate", "uint256"), ("admin", "uint256")])
      (.ofFields [("owner", "uint256"), ("fee", "uint256"), ("paused", "bool")]) = .ok () :=
    (check_eq_ok_iff_unsafeSteps _ _).mpr (by decide)
  have h : SafeHistory
      [.ofFields [("fee", "uint256"), ("owner", "uint256")],
        .ofFields [("rate", "uint256"), ("admin", "uint256")],
        .ofFields [("owner", "uint256"), ("fee", "uint256"), ("paused", "bool")]] := by
    refine ⟨fun i hi => ?_, by decide⟩
    match i, hi with
    | 0, _ => exact hreplaced
    | 1, _ => exact hback
  refine ⟨h, ?_, (labelOf_eq_of_history h (Nat.zero_le 2) (by decide)).2⟩
  rw [Ne, check_eq_ok_iff_unsafeSteps]
  decide

end Upgrade

end SlotSafe
