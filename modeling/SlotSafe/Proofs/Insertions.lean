import SlotSafe.Proofs.ChangesInPlace
import SlotSafe.Proofs.Embeddings

/-!
# Pure insertions

An upgrade that only inserts variables leaves the original sequence of fields embedded in the
updated one, perhaps in several ways where fields repeat. **Every variable is then paired with the
earliest field that it can be paired with**, and what is passed over on the way is reported as
inserted (`operations_of_embeds`).

A free pair is taken at once in any alignment. Where the next two fields differ, what decides is
that the cost of the alignment is known at every step: it is 2 for each field that the updated rest
has more than the original one, which is what no edit can save and an embedding attains. Only an
insertion leads to it.
-/

namespace SlotSafe

namespace Alignment

variable {α : Type}

/-- An embedding is an edit that costs no more than what the lengths differ by. -/
theorem exists_edit_of_embeds {free : α → α → Bool} {as bs : List α} (h : Embeds free as bs) :
    ∃ e : Edit as bs, e.cost free = 2 * (bs.length - as.length) := by
  induction h with
  | nil => exact ⟨.insertAll _, by rw [Edit.cost_insertAll]; rfl⟩
  | @cons a b as bs hab h ih =>
    obtain ⟨e, he⟩ := ih
    refine ⟨.pair a b e, ?_⟩
    rw [Edit.cost, if_pos hab, he, List.length_cons, List.length_cons]
    omega
  | @cons_right b as bs h ih =>
    obtain ⟨e, he⟩ := ih
    have hlen := Embeds.length_le h
    refine ⟨.insert b e, ?_⟩
    rw [Edit.cost, he, List.length_cons]
    omega

/-- The steps of an element and its stretch: what is passed over is inserted, and then comes the
pair. -/
def stepsOfStretch (p : α × Stretch α) : List (Change α) :=
  p.2.passed.map (fun b => ⟨Action.insert, none, some b⟩)
    ++ [⟨Action.equal, some p.1, some p.2.partner⟩]

theorem action_of_mem_stepsOfStretch {p : α × Stretch α} {c : Change α}
    (h : c ∈ stepsOfStretch p) : c.action = Action.equal ∨ c.action = Action.insert := by
  obtain hmem | hmem := List.mem_append.mp h
  · obtain ⟨b, -, rfl⟩ := List.mem_map.mp hmem
    exact Or.inr rfl
  · obtain rfl := List.mem_singleton.mp hmem
    exact Or.inl rfl

/-- The alignment costs at least what the lengths differ by. -/
theorem length_sub_le_cost_best (classify : α → α → String) (as bs : List α) :
    2 * (as.length - bs.length) + 2 * (bs.length - as.length) ≤ (best classify as bs).cost :=
  (le_cost_best_iff classify).mpr (fun e => e.length_sub_le_cost _)

variable {classify : α → α → String}

/-- **What the alignment costs when only insertions are needed.** -/
theorem cost_best_of_embeds {as bs : List α} (h : Embeds (isFree classify) as bs) :
    (best classify as bs).cost = 2 * (bs.length - as.length) := by
  obtain ⟨e, he⟩ := exists_edit_of_embeds h
  have hupper := best_cost_le_cost classify e
  have hlower := length_sub_le_cost_best classify as bs
  omega

/-- Where the next two elements differ, the updated one is inserted. -/
theorem best_cons_of_not_isFree {a b : α} {as bs : List α}
    (h : Embeds (isFree classify) (a :: as) (b :: bs)) (hab : isFree classify a b = false) :
    best classify (a :: as) (b :: bs) = Plan.insert b (best classify (a :: as) bs) := by
  have hrest := h.skip hab
  have hlen := hrest.length_le
  have hinsert := cost_best_of_embeds hrest
  have hpair := length_sub_le_cost_best classify as bs
  have hdelete := length_sub_le_cost_best classify as (b :: bs)
  rw [List.length_cons] at hlen hinsert hdelete
  -- the pair would cost 3 and the insertion costs 2, with a rest that costs 2 less
  rw [best_cons, Plan.choose, if_neg, if_pos]
  · rw [Plan.cost_insert, Plan.cost_delete]
    omega
  · rw [Plan.cost_pair, Plan.cost_insert, Plan.cost_delete, hab]
    simp only [Bool.false_eq_true, if_false]
    omega

/-- **The alignment follows the leftmost embedding.** What is left behind it is appended. -/
theorem changes_of_embeds {as bs : List α} (h : Embeds (isFree classify) as bs) :
    (best classify as bs).changes
      = (as.zip (leftmost (isFree classify) as bs)).flatMap stepsOfStretch
        ++ (bs.drop ((leftmost (isFree classify) as bs).flatMap Stretch.all).length).map
            (fun b => ⟨Action.append, none, some b⟩) := by
  induction bs generalizing as with
  | nil =>
    obtain rfl : as = [] := List.eq_nil_of_length_eq_zero (Nat.le_zero.mp h.length_le)
    rfl
  | cons b bs ih =>
    cases as with
    | nil =>
      rw [best_nil_left, ← plan_insertAll classify]
      exact changes_inPlace classify [] (b :: bs)
    | cons a as =>
      cases hab : isFree classify a b with
      | true =>
        rw [best_cons_of_isFree classify hab, Plan.pair, ih h.tail, leftmost_cons_of_same hab,
          List.flatMap_cons, List.length_append, Nat.add_comm (Stretch.all _).length]
        rfl
      | false =>
        obtain ⟨s, rest, -, -, hstretches⟩ := List.forall₂_cons_left_iff.mp (h.skip hab).partners
        rw [best_cons_of_not_isFree h hab, Plan.insert, ih (h.skip hab),
          leftmost_cons_of_not_same hab, hstretches]
        rfl

end Alignment

namespace Upgrade

open SlotSafe.Alignment

/-- The step that inserts a variable. -/
def stepOfInsertion (u : Item) : Change Item := ⟨Action.insert, none, some u⟩

variable {original updated : Layout}

/-- The operations of a pure insertion: what is appended behind the last partner is left out. -/
theorem operations_eq_of_embeds
    (h : Embeds (sameField original updated) original.items updated.items) :
    operations original updated
      = (original.items.zip
          (leftmost (sameField original updated) original.items updated.items)).flatMap
        stepsOfStretch := by
  rw [← isFree_classify] at h ⊢
  refine operations_of_changes original updated (changes_of_embeds h) (fun c hc => ?_)
  obtain ⟨p, -, hmem⟩ := List.mem_flatMap.mp hc
  obtain ha | ha := action_of_mem_stepsOfStretch hmem
  · rw [ha]
    decide
  · rw [ha]
    decide

theorem classify_of_sameField {o u : Item} (h : sameField original updated o u = true) :
    classify original updated o u = Action.equal := by
  rw [← isFree_classify] at h
  exact beq_iff_eq.mp h

/-- Where the updated layout starts with the original fields, every step is a pair without
difference, and the upgrade is safe. -/
theorem operations_of_prefix
    (h : List.Forall₂ (fun o u => sameField original updated o u = true) original.items
      (updated.items.take original.items.length)) :
    operations original updated
        = (original.items.zip updated.items).map (fun p => ⟨Action.equal, some p.1, some p.2⟩)
      ∧ check original updated = .ok () := by
  have hlen : original.items.length ≤ updated.items.length := by
    have htake := h.length_eq
    rw [List.length_take] at htake
    omega
  have hpairs : ∀ p ∈ original.items.zip updated.items,
      sameField original updated p.1 p.2 = true := by
    intro p hp
    rw [List.zip_eq_zip_take_min, Nat.min_eq_left hlen, List.take_length] at hp
    exact (List.forall₂_iff_zip.mp h).2 hp
  have hcost : (Edit.inPlace original.items updated.items).cost (sameField original updated)
      ≤ (best (classify original updated) original.items updated.items).cost := by
    have hcount : (original.items.zip updated.items).countP
        (fun p => !sameField original updated p.1 p.2) = 0 :=
      List.countP_eq_zero.mpr (fun p hp => by simp [hpairs p hp])
    rw [Edit.cost_inPlace, hcount, Nat.mul_zero, Nat.zero_add]
    exact length_sub_le_cost_best _ _ _
  constructor
  · rw [operations_of_inPlace original updated hcost, List.drop_eq_nil_of_le hlen, List.map_nil,
      List.append_nil]
    refine List.map_congr_left (fun p hp => ?_)
    rw [stepOfPair, classify_of_sameField (hpairs p hp)]
  · refine (check_eq_ok_iff_inPlace original updated).mpr ⟨hlen, fun p hp => ?_, hcost⟩
    exact (Bool.and_eq_true_iff.mp (hpairs p hp)).2

/-- Where what is passed over takes unsafe steps, and partners take safe ones, the unsafe steps are
those of what is passed over. -/
theorem filter_flatMap_passed {alone : Item → Change Item}
    {together : Item × Stretch Item → Change Item}
    (halone : ∀ item, Action.isSafe (alone item).action = false)
    (htogether : ∀ p, Action.isSafe (together p).action = true) (ps : List (Item × Stretch Item)) :
    (ps.flatMap fun p => p.2.passed.map alone ++ [together p]).filter
        (fun c => !Action.isSafe c.action)
      = (ps.flatMap fun p => p.2.passed).map alone := by
  induction ps with
  | nil => rfl
  | cons p ps ih =>
    have hkept : (p.2.passed.map alone).filter (fun c => !Action.isSafe c.action)
        = p.2.passed.map alone := by
      refine List.filter_eq_self.mpr (fun c hc => ?_)
      obtain ⟨item, -, rfl⟩ := List.mem_map.mp hc
      rw [halone item]
      rfl
    rw [List.flatMap_cons, List.flatMap_cons, List.filter_append, ih, List.map_append,
      List.filter_append, hkept, List.filter_singleton, htogether p]
    exact congrArg (· ++ _) (List.append_nil _)

/-- The unsafe steps of a pure insertion are the insertions. -/
theorem filter_stepsOfStretch (ps : List (Item × Stretch Item)) :
    (ps.flatMap stepsOfStretch).filter (fun c => !Action.isSafe c.action)
      = (ps.flatMap (fun p => p.2.passed)).map stepOfInsertion :=
  @filter_flatMap_passed stepOfInsertion _ (fun _ => rfl) (fun _ => rfl) ps

/-- **Pure insertions are reported where the leftmost embedding leaves room for them.** Each
variable is paired with its partner there, without difference, and what is passed over on the way
is inserted. The insertions are the unsafe steps, so the upgrade is safe exactly when the updated
layout starts with the original fields. -/
theorem operations_of_embeds
    (h : Embeds (sameField original updated) original.items updated.items) :
    ∃ stretches, IsLeftmost (sameField original updated) original.items updated.items stretches
      ∧ operations original updated = (original.items.zip stretches).flatMap stepsOfStretch
      ∧ (∀ c ∈ operations original updated,
          c.action = Action.equal ∨ c.action = Action.insert)
      ∧ unsafeSteps original updated = (stretches.flatMap Stretch.passed).map stepOfInsertion
      ∧ (check original updated = .ok () ↔
          List.Forall₂ (fun o u => sameField original updated o u = true) original.items
            (updated.items.take original.items.length)) := by
  have hleft := h.isLeftmost
  have hops := operations_eq_of_embeds h
  have hunsafe : unsafeSteps original updated
      = ((leftmost (sameField original updated) original.items updated.items).flatMap
          Stretch.passed).map stepOfInsertion := by
    rw [unsafeSteps, hops, filter_stepsOfStretch,
      ← List.flatMap_map Prod.snd Stretch.passed, List.map_snd_zip]
    exact hleft.partners.length_eq.ge
  refine ⟨_, hleft, hops, fun c hc => ?_, hunsafe, ?_⟩
  · rw [hops] at hc
    obtain ⟨p, -, hmem⟩ := List.mem_flatMap.mp hc
    exact action_of_mem_stepsOfStretch hmem
  · rw [check_eq_ok_iff_unsafeSteps, hunsafe, List.map_eq_nil_iff]
    exact hleft.passed_eq_nil_iff

/-- Two fields are inserted, one of them equal to the field before it, and one is added at the
end. -/
theorem operations_of_fields_inserted :
    Embeds
      (sameField (.ofFields [("fee", "uint256"), ("paused", "bool")])
        (.ofFields [("gap", "bool"), ("fee", "uint256"), ("fee", "uint256"), ("paused", "bool"),
          ("paused", "bool")]))
      (Layout.ofFields [("fee", "uint256"), ("paused", "bool")]).items
      (Layout.ofFields [("gap", "bool"), ("fee", "uint256"), ("fee", "uint256"),
        ("paused", "bool"), ("paused", "bool")]).items
    ∧ check (.ofFields [("fee", "uint256"), ("paused", "bool")])
      (.ofFields [("gap", "bool"), ("fee", "uint256"), ("fee", "uint256"), ("paused", "bool"),
        ("paused", "bool")]) ≠ .ok () := by
  have hembeds : Embeds
      (sameField (.ofFields [("fee", "uint256"), ("paused", "bool")])
        (.ofFields [("gap", "bool"), ("fee", "uint256"), ("fee", "uint256"), ("paused", "bool"),
          ("paused", "bool")]))
      (Layout.ofFields [("fee", "uint256"), ("paused", "bool")]).items
      (Layout.ofFields [("gap", "bool"), ("fee", "uint256"), ("fee", "uint256"),
        ("paused", "bool"), ("paused", "bool")]).items :=
    .cons_right (.cons (by decide) (.cons_right (.cons (by decide) .nil)))
  obtain ⟨stretches, -, -, -, -, hcheck⟩ := operations_of_embeds hembeds
  refine ⟨hembeds, ?_⟩
  rw [Ne, hcheck]
  decide

end Upgrade

end SlotSafe
