import SlotSafe.Proofs.Edits
import SlotSafe.Upgrade

/-!
# When an upgrade is safe

The verdict comes out of an alignment, but it can be told without one. An upgrade is safe exactly
when no variable is lost, every occupied position keeps the type it is labelled with, and **aligning
the layouts position by position is as cheap as any other alignment**
(`check_eq_ok_iff_inPlace`). The last condition is where a moved variable shows: it is found again
elsewhere, and following it there may cost less than taking everything on the way for renamed.
-/

namespace SlotSafe

/-- The layout of variables given by name and type, each type being its own key. -/
def Layout.ofFields (fields : List (String × String)) : Layout where
  items := fields.map (fun f => ⟨.text "Token", .text f.1, .text f.2, .text "Token.sol:1"⟩)
  types := .ofList (fields.map (fun f => (.text f.2, .text f.2)))
  closed := by
    intro item h
    obtain ⟨f, hf, rfl⟩ := List.mem_map.mp h
    refine Table.contains_insertAll_of_any (List.any_eq_true.mpr
      ⟨(.text f.2, .text f.2), List.mem_map_of_mem hf, ?_⟩)
    simp

namespace Upgrade

open SlotSafe.Alignment

variable (original updated : Layout)

/-- Whether the types of two items have the same label. -/
def sameType (o u : Item) : Bool := original.labelOf o == updated.labelOf u

/-- Whether two items have the same name and the same label of the type. -/
def sameField (o u : Item) : Bool := o.label == u.label && sameType original updated o u

/-! ## The classifier -/

/-- A pair is free exactly when it agrees in name and type. -/
theorem isFree_classify : isFree (classify original updated) = sameField original updated := by
  funext o u
  unfold isFree classify sameField sameType
  cases original.labelOf o == updated.labelOf u <;> cases o.label == u.label <;> decide

/-- A pair is safe exactly when the types agree. -/
theorem isSafe_classify (o u : Item) :
    Action.isSafe (classify original updated o u) = sameType original updated o u := by
  unfold classify sameType
  cases original.labelOf o == updated.labelOf u <;> cases o.label == u.label <;> decide

/-- No pair is taken for a variable added at the end. -/
theorem classify_ne_append (o u : Item) : classify original updated o u ≠ Action.append := by
  unfold classify
  cases original.labelOf o == updated.labelOf u <;> cases o.label == u.label <;> decide

/-- A pair of two types is a rename or a replacement. -/
theorem classify_of_not_sameType {o u : Item} (h : sameType original updated o u = false) :
    classify original updated o u
      = if o.label == u.label then Action.rename else Action.replace := by
  unfold classify
  rw [show (original.labelOf o == updated.labelOf u) = false from h]
  cases o.label == u.label <;> rfl

/-! ## The verdict -/

theorem alignment_eq_best :
    alignment original updated
      = (best (classify original updated) original.items updated.items).changes :=
  align_eq_best _ _ _

/-- The operations are what the alignment does before it appends. -/
theorem operations_of_changes {steps : List (Change Item)} {added : List Item}
    (h : (best (classify original updated) original.items updated.items).changes
      = steps ++ added.map fun u => ⟨Action.append, none, some u⟩)
    (hsteps : ∀ c ∈ steps, c.action ≠ Action.append) : operations original updated = steps := by
  have happended : ∀ c ∈ added.map (fun u => (⟨Action.append, none, some u⟩ : Change Item)),
      ¬(c.action != Action.append) = true := by
    intro c hc
    obtain ⟨u, -, rfl⟩ := List.mem_map.mp hc
    simp
  rw [operations, alignment_eq_best, h, List.filter_append,
    List.filter_eq_nil_iff.mpr happended, List.append_nil]
  exact List.filter_eq_self.mpr (fun c hc => bne_iff_ne.mpr (hsteps c hc))

/-- The check succeeds or lists the unsafe steps, of which there is one at least. -/
theorem check_ne_ok_iff :
    check original updated ≠ .ok () ↔
      ∃ es, es ≠ [] ∧ check original updated = .error (.incompatible es) := by
  unfold check
  split
  · simp
  · next h => simpa using h

/-- An upgrade is safe when it has no unsafe step. -/
theorem check_eq_ok_iff_unsafeSteps :
    check original updated = .ok () ↔ unsafeSteps original updated = [] := by
  unfold check errors
  cases unsafeSteps original updated <;> simp

/-- An upgrade is safe when every step of the alignment is. -/
theorem check_eq_ok_iff :
    check original updated = .ok () ↔
      ∀ c ∈ alignment original updated,
        c.action = Action.append ∨ Action.isSafe c.action = true := by
  rw [check_eq_ok_iff_unsafeSteps, unsafeSteps, operations, List.filter_eq_nil_iff]
  refine forall_congr' (fun c => ?_)
  rw [List.mem_filter]
  by_cases h : c.action = Action.append <;> simp [h]

/-- **An upgrade is safe exactly when the alignment is in place and keeps every type.** -/
theorem check_eq_ok_iff_inPlace :
    check original updated = .ok () ↔
      original.items.length ≤ updated.items.length ∧
      (∀ p ∈ original.items.zip updated.items, sameType original updated p.1 p.2 = true) ∧
      (Edit.inPlace original.items updated.items).cost (sameField original updated)
        ≤ (best (classify original updated) original.items updated.items).cost := by
  rw [check_eq_ok_iff, alignment_eq_best]
  constructor
  · intro h
    -- a safe step is neither an insertion nor a deletion, so only the edit in place is left
    obtain ⟨hlen, hbest⟩ := best_eq_inPlace_of_actions (classify original updated)
      (fun c hc => by
        obtain ha | ha := h c hc
        · exact ⟨by rw [ha]; decide, by rw [ha]; decide⟩
        · exact ⟨fun hi => by rw [hi] at ha; exact absurd ha (by decide),
            fun hd => by rw [hd] at ha; exact absurd ha (by decide)⟩)
    refine ⟨hlen, fun p hp => ?_, ?_⟩
    · rw [hbest, changes_inPlace] at h
      obtain ha | ha := h _ (List.mem_append_left _ (List.mem_append_left _
        (List.mem_map_of_mem hp)))
      · exact absurd ha (classify_ne_append original updated p.1 p.2)
      · rw [← isSafe_classify]
        exact ha
    · rw [hbest, cost_plan, isFree_classify]
  · rintro ⟨hlen, htypes, hcost⟩ c hc
    rw [← isFree_classify] at hcost
    rw [best_eq_inPlace _ hcost, changes_inPlace, List.drop_eq_nil_of_le hlen, List.map_nil,
      List.append_nil] at hc
    obtain hc | hc := List.mem_append.mp hc
    · obtain ⟨p, hp, rfl⟩ := List.mem_map.mp hc
      refine Or.inr ?_
      rw [isSafe_classify]
      exact htypes p hp
    · obtain ⟨b, -, rfl⟩ := List.mem_map.mp hc
      exact Or.inl rfl

/-- The number of positions at which the names differ. -/
def renamings : Nat :=
  (original.items.zip updated.items).countP (fun p => !(p.1.label == p.2.label))

/-- Where no type changes, the cost in place counts the changed names and the added variables. -/
theorem cost_inPlace_of_sameType (hlen : original.items.length ≤ updated.items.length)
    (htypes : ∀ p ∈ original.items.zip updated.items, sameType original updated p.1 p.2 = true) :
    (Edit.inPlace original.items updated.items).cost (sameField original updated)
      = 3 * renamings original updated
        + 2 * (updated.items.length - original.items.length) := by
  have hcount : (original.items.zip updated.items).countP
      (fun p => !sameField original updated p.1 p.2) = renamings original updated := by
    refine List.countP_congr (fun p hp => ?_)
    rw [sameField, htypes p hp, Bool.and_true]
  rw [Edit.cost_inPlace, hcount, Nat.sub_eq_zero_of_le hlen]
  rfl

/-- What holds of the pairs of two lists holds position by position. -/
theorem forall_mem_zip_iff {as bs : List Item} {P : Item → Item → Prop} :
    (∀ p ∈ as.zip bs, P p.1 p.2) ↔
      ∀ (i : Nat) (h : i < as.length) (h' : i < bs.length), P as[i] bs[i] := by
  constructor
  · intro hall i h h'
    have hi : i < (as.zip bs).length := by
      rw [List.length_zip]
      exact Nat.lt_min.mpr ⟨h, h'⟩
    have hp := hall _ (List.getElem_mem hi)
    rwa [List.getElem_zip] at hp
  · intro hall p hp
    obtain ⟨i, hi, rfl⟩ := List.mem_iff_getElem.mp hp
    rw [List.length_zip] at hi
    rw [List.getElem_zip]
    exact hall i (Nat.lt_min.mp hi).1 (Nat.lt_min.mp hi).2

/-- **When an upgrade is safe**: no variable is lost, the type at every occupied position keeps its
label, and no alignment of the two layouts costs less than 3 for each position whose names differ
and 2 for each added variable. -/
theorem check_eq_ok_iff_cheapest :
    check original updated = .ok () ↔
      original.items.length ≤ updated.items.length ∧
      (∀ (i : Nat) (h : i < original.items.length) (h' : i < updated.items.length),
        original.labelOf original.items[i] == updated.labelOf updated.items[i]) ∧
      ∀ e : Edit original.items updated.items,
        3 * renamings original updated + 2 * (updated.items.length - original.items.length)
          ≤ e.cost (sameField original updated) := by
  rw [check_eq_ok_iff_inPlace, ← forall_mem_zip_iff
    (P := fun o u => (original.labelOf o == updated.labelOf u) = true)]
  refine and_congr_right (fun hlen => and_congr_right (fun htypes => ?_))
  rw [cost_inPlace_of_sameType original updated hlen htypes, le_cost_best_iff, isFree_classify]

end Upgrade

end SlotSafe
