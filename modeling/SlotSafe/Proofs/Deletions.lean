import SlotSafe.Proofs.Insertions

/-!
# Pure deletions

An upgrade that only drops variables leaves the updated sequence of fields embedded in the original
one. **Every variable that is left is then paired with the earliest field that it can be paired
with**, and every other variable is reported as deleted, under its old name and place
(`operations_of_embedded`). None of them is taken for a renamed one, although a pair is tried before
a deletion.

As far as costs go this is a pure insertion read backwards (`Edit.mirror`). The steps are not those
of an insertion read backwards: partners are chosen among the original fields now, and what is left
behind the last partner is deleted like everything else, where an insertion would append it.
-/

namespace SlotSafe

namespace Alignment

variable {α : Type}

/-- The steps of an element that is left and of its stretch: what is passed over is deleted, and
then comes the pair. -/
def stepsOfLoss (p : α × Stretch α) : List (Change α) :=
  p.2.passed.map (fun a => ⟨Action.delete, some a, none⟩)
    ++ [⟨Action.equal, some p.2.partner, some p.1⟩]

variable {classify : α → α → String}

/-- **What the alignment costs when only deletions are needed.** -/
theorem cost_best_of_embedded {as bs : List α} (h : Embeds (flip (isFree classify)) bs as) :
    (best classify as bs).cost = 2 * (as.length - bs.length) := by
  obtain ⟨e, he⟩ := exists_edit_of_embeds h
  have hmirror : e.mirror.cost (isFree classify) = e.cost (flip (isFree classify)) :=
    Edit.cost_mirror (flip (isFree classify)) e
  have hupper := best_cost_le_cost classify e.mirror
  have hlower := length_sub_le_cost_best classify as bs
  omega

/-- Where the next two elements differ, the original one is deleted. -/
theorem best_cons_of_embedded {a b : α} {as bs : List α}
    (h : Embeds (flip (isFree classify)) (b :: bs) (a :: as)) (hab : isFree classify a b = false) :
    best classify (a :: as) (b :: bs) = Plan.delete a (best classify as (b :: bs)) := by
  have hrest := h.skip hab
  have hlen := hrest.length_le
  have hdelete := cost_best_of_embedded hrest
  have hpair := length_sub_le_cost_best classify as bs
  have hinsert := length_sub_le_cost_best classify (a :: as) bs
  rw [List.length_cons] at hlen hdelete hinsert
  -- the pair would cost 3, and the insertion would have to be made good by one more deletion
  rw [best_cons, Plan.choose, if_neg, if_neg]
  · rw [Plan.cost_insert, Plan.cost_delete]
    omega
  · rw [Plan.cost_pair, Plan.cost_insert, Plan.cost_delete, hab]
    simp only [Bool.false_eq_true, if_false]
    omega

/-- **The alignment follows the leftmost embedding in the original sequence.** What is left behind
it is deleted. -/
theorem changes_of_embedded {as bs : List α} (h : Embeds (flip (isFree classify)) bs as) :
    (best classify as bs).changes
      = (bs.zip (leftmost (flip (isFree classify)) bs as)).flatMap stepsOfLoss
        ++ (as.drop ((leftmost (flip (isFree classify)) bs as).flatMap Stretch.all).length).map
            (fun a => ⟨Action.delete, some a, none⟩) := by
  -- on the original sequence, of which every step takes an element
  induction as generalizing bs with
  | nil =>
    obtain rfl : bs = [] := List.eq_nil_of_length_eq_zero (Nat.le_zero.mp h.length_le)
    rfl
  | cons a as ih =>
    cases bs with
    | nil =>
      rw [best_nil_right, Plan.delete, ih .nil]
      rfl
    | cons b bs =>
      cases hab : isFree classify a b with
      | true =>
        have hba : flip (isFree classify) b a = true := hab
        rw [best_cons_of_isFree classify hab, Plan.pair, ih h.tail, leftmost_cons_of_same hba,
          List.flatMap_cons, List.length_append, Nat.add_comm (Stretch.all _).length]
        rfl
      | false =>
        have hba : flip (isFree classify) b a = false := hab
        obtain ⟨s, rest, -, -, hstretches⟩ := List.forall₂_cons_left_iff.mp (h.skip hba).partners
        rw [best_cons_of_embedded h hab, Plan.delete, ih (h.skip hba),
          leftmost_cons_of_not_same hba, hstretches]
        rfl

/-! ## The actions -/

theorem actions_of_stepsOfLoss (p : α × Stretch α) :
    (stepsOfLoss p).map Change.action
      = List.replicate p.2.passed.length Action.delete ++ [Action.equal] := by
  rw [stepsOfLoss, List.map_append, List.map_map]
  exact congrArg (· ++ _) List.map_const'

/-- Each element that is left is in one pair, and each element that is passed over is deleted. -/
theorem actions_perm (ps : List (α × Stretch α)) :
    ((ps.flatMap stepsOfLoss).map Change.action).Perm
      (List.replicate ps.length Action.equal
        ++ List.replicate (ps.flatMap fun p => p.2.passed).length Action.delete) := by
  induction ps with
  | nil => exact List.Perm.refl _
  | cons p ps ih =>
    rw [List.flatMap_cons, List.flatMap_cons, List.map_append, actions_of_stepsOfLoss,
      List.length_append, ← List.replicate_append_replicate, List.length_cons,
      List.replicate_succ, List.append_assoc, List.singleton_append, List.cons_append]
    refine List.perm_middle.trans (List.Perm.cons _ ?_)
    exact (ih.append_left _).trans (List.perm_append_comm_assoc _ _ _)

end Alignment

namespace Upgrade

open SlotSafe.Alignment

variable {original updated : Layout}

/-- The report of a deleted variable gives its old place and name. -/
def reportOfDeletion (o : Item) : UpgradeError := ⟨o.src, Action.delete, o.label⟩

theorem report_stepOfDeletion (o : Item) : report (stepOfDeletion o) = reportOfDeletion o := rfl

/-- The alignment of a pure deletion, in which nothing is appended. -/
theorem alignment_eq_of_embedded
    (h : Embeds (flip (sameField original updated)) updated.items original.items) :
    alignment original updated
        = (updated.items.zip
            (leftmost (flip (sameField original updated)) updated.items original.items)).flatMap
            stepsOfLoss
          ++ (original.items.drop
              ((leftmost (flip (sameField original updated)) updated.items original.items).flatMap
                Stretch.all).length).map stepOfDeletion := by
  rw [← isFree_classify] at h ⊢
  rw [alignment_eq_best]
  exact changes_of_embedded h

/-- The unsafe steps among those of the variables that are left are deletions. -/
theorem filter_stepsOfLoss (ps : List (Item × Stretch Item)) :
    (ps.flatMap stepsOfLoss).filter (fun c => !Action.isSafe c.action)
      = (ps.flatMap fun p => p.2.passed).map stepOfDeletion :=
  @filter_flatMap_passed stepOfDeletion _ (fun _ => rfl) (fun _ => rfl) ps

/-- No deletion is safe. -/
theorem filter_deletions (os : List Item) :
    (os.map stepOfDeletion).filter (fun c => !Action.isSafe c.action) = os.map stepOfDeletion := by
  refine List.filter_eq_self.mpr (fun c hc => ?_)
  obtain ⟨o, -, rfl⟩ := List.mem_map.mp hc
  rfl

theorem actions_of_deletions (os : List Item) :
    (os.map stepOfDeletion).map Change.action = List.replicate os.length Action.delete :=
  List.map_map.trans List.map_const'

/-- Where the actions are those of pairs without difference and of deletions, nothing is added. -/
theorem operations_eq_alignment {m n : Nat}
    (h : ((alignment original updated).map Change.action).Perm
      (List.replicate m Action.equal ++ List.replicate n Action.delete)) :
    operations original updated = alignment original updated := by
  refine List.filter_eq_self.mpr (fun c hc => ?_)
  obtain ha | ha := List.mem_append.mp (h.mem_iff.mp (List.mem_map_of_mem hc))
  · rw [List.eq_of_mem_replicate ha]
    decide
  · rw [List.eq_of_mem_replicate ha]
    decide

/-- **Pure deletions are reported one by one.** The alignment pairs each variable that is left with
its partner in the leftmost embedding, without difference, and deletes every other one, and it adds
nothing. The unsafe steps are the deletions, in the order of the original layout and under the old
places and names, so the upgrade is safe exactly when there is none. -/
theorem operations_of_embedded
    (h : Embeds (flip (sameField original updated)) updated.items original.items) :
    ∃ stretches, IsLeftmost (flip (sameField original updated)) updated.items original.items
        stretches
      ∧ alignment original updated
          = (updated.items.zip stretches).flatMap stepsOfLoss
            ++ (original.items.drop (stretches.flatMap Stretch.all).length).map stepOfDeletion
      ∧ operations original updated = alignment original updated
      ∧ ((operations original updated).map Change.action).Perm
          (List.replicate updated.size Action.equal
            ++ List.replicate (original.size - updated.size) Action.delete)
      ∧ unsafeSteps original updated = (leftOut stretches original.items).map stepOfDeletion
      ∧ errors original updated = (leftOut stretches original.items).map reportOfDeletion
      ∧ (leftOut stretches original.items).Sublist original.items
      ∧ (leftOut stretches original.items).length = original.size - updated.size
      ∧ (check original updated = .ok () ↔ original.size = updated.size) := by
  have hleft := h.isLeftmost
  have halign := alignment_eq_of_embedded h
  have hsize : updated.size ≤ original.size := h.length_le
  generalize leftmost (flip (sameField original updated)) updated.items original.items = stretches
    at hleft halign
  have hlen : updated.size = stretches.length := hleft.partners.length_eq
  have hpassed := flatMap_passed_zip hlen.ge
  have hcount : (leftOut stretches original.items).length = original.size - updated.size :=
    hleft.length_leftOut
  have hactions : ((alignment original updated).map Change.action).Perm
      (List.replicate updated.size Action.equal
        ++ List.replicate (original.size - updated.size) Action.delete) := by
    have hzip : (updated.items.zip stretches).length = updated.size := by
      rw [List.length_zip, ← hlen]
      exact Nat.min_self _
    rw [halign, List.map_append, actions_of_deletions, ← hcount, leftOut, List.length_append,
      ← List.replicate_append_replicate, ← List.append_assoc, ← hpassed, ← hzip]
    exact (actions_perm _).append_right _
  have hops := operations_eq_alignment hactions
  have hunsafe : unsafeSteps original updated
      = (leftOut stretches original.items).map stepOfDeletion := by
    rw [unsafeSteps, hops, halign, List.filter_append, filter_stepsOfLoss, filter_deletions,
      hpassed, leftOut, List.map_append]
  have herrors : errors original updated
      = (leftOut stretches original.items).map reportOfDeletion := by
    rw [errors, hunsafe, List.map_map]
    exact List.map_congr_left (fun o _ => report_stepOfDeletion o)
  refine ⟨stretches, hleft, halign, hops, hops ▸ hactions, hunsafe, herrors,
    hleft.leftOut_sublist, hcount, ?_⟩
  rw [check_eq_ok_iff_unsafeSteps, hunsafe, List.map_eq_nil_iff, ← List.length_eq_zero_iff, hcount,
    Nat.sub_eq_zero_iff_le]
  exact ⟨fun hle => hle.antisymm hsize, fun heq => heq.le⟩

/-- Three fields are dropped: the first one, one of two equal ones in a row, and the last. -/
theorem operations_of_fields_deleted :
    Embeds
      (flip (sameField
        (.ofFields [("gap", "bool"), ("fee", "uint256"), ("fee", "uint256"), ("paused", "bool"),
          ("owner", "address")])
        (.ofFields [("fee", "uint256"), ("paused", "bool")])))
      (Layout.ofFields [("fee", "uint256"), ("paused", "bool")]).items
      (Layout.ofFields [("gap", "bool"), ("fee", "uint256"), ("fee", "uint256"),
        ("paused", "bool"), ("owner", "address")]).items
    ∧ check
      (.ofFields [("gap", "bool"), ("fee", "uint256"), ("fee", "uint256"), ("paused", "bool"),
        ("owner", "address")])
      (.ofFields [("fee", "uint256"), ("paused", "bool")]) ≠ .ok () := by
  have hembeds : Embeds
      (flip (sameField
        (.ofFields [("gap", "bool"), ("fee", "uint256"), ("fee", "uint256"), ("paused", "bool"),
          ("owner", "address")])
        (.ofFields [("fee", "uint256"), ("paused", "bool")])))
      (Layout.ofFields [("fee", "uint256"), ("paused", "bool")]).items
      (Layout.ofFields [("gap", "bool"), ("fee", "uint256"), ("fee", "uint256"),
        ("paused", "bool"), ("owner", "address")]).items :=
    .cons_right (.cons (by decide) (.cons_right (.cons (by decide) .nil)))
  obtain ⟨stretches, -, -, -, -, -, -, -, -, hcheck⟩ := operations_of_embedded hembeds
  refine ⟨hembeds, ?_⟩
  rw [Ne, hcheck]
  decide

end Upgrade

end SlotSafe
