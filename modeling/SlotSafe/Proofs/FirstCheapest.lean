import SlotSafe.Proofs.Edits

/-!
# The first of the cheapest alignments

Several edits of two sequences can cost the same, so that being cheapest does not say which of them the
alignment is. The steps of an edit are compared in the order in which they are tried: a pair comes
before an insertion, and an insertion before a deletion. Edits are then ordered like words in a
dictionary, by the first step in which they differ.

**The alignment is the cheapest edit that comes first** (`align_first_cheapest`). At each place the
choice looks at costs alone, and yet it never passes over an edit that comes earlier: a step that is not
taken although it comes before costs more, whatever follows it (`choose_eq`).
-/

namespace SlotSafe.Alignment

variable {α : Type}

/-- What one step of an edit does. -/
inductive Step where
  | pair
  | insert
  | delete
  deriving DecidableEq, Repr

/-- The place of a step among those that are tried. -/
def Step.rank : Step → Nat
  | pair => 0
  | insert => 1
  | delete => 2

instance : LT Step := ⟨fun s t => s.rank < t.rank⟩

/-- The steps of an edit. -/
def Edit.steps : {as bs : List α} → Edit as bs → List Step
  | _, _, .done => []
  | _, _, .pair _ _ e => .pair :: e.steps
  | _, _, .insert _ e => .insert :: e.steps
  | _, _, .delete _ e => .delete :: e.steps

/-- **An edit that comes first**: any other one that costs no more than a bound has steps that come
later in the order of words. -/
def Edit.IsFirstWithin (free : α → α → Bool) (bound : Nat) {as bs : List α} (e : Edit as bs) : Prop :=
  ∀ e' : Edit as bs, e'.cost free ≤ bound → e' = e ∨ e.steps < e'.steps

variable (classify : α → α → String)

/-- **A choice and the reason for it**: the plans that come before the one that is chosen cost more,
and those that come after it do not cost less. -/
theorem choose_eq (p q r : Plan α) :
    (Plan.choose p q r = p ∧ p.cost ≤ q.cost ∧ p.cost ≤ r.cost)
      ∨ (Plan.choose p q r = q ∧ q.cost < p.cost ∧ q.cost ≤ r.cost)
      ∨ (Plan.choose p q r = r ∧ r.cost < p.cost ∧ r.cost < q.cost) := by
  unfold Plan.choose
  split
  · next h => exact .inl ⟨rfl, h⟩
  · split
    · exact .inr (.inl ⟨rfl, by omega, by omega⟩)
    · exact .inr (.inr ⟨rfl, by omega, by omega⟩)

/-- When no original element is left there is but one edit. -/
theorem Edit.eq_insertAll {bs : List α} (e : Edit [] bs) : e = Edit.insertAll bs := by
  induction bs with
  | nil =>
    cases e with
    | done => rfl
  | cons b bs ih =>
    cases e with
    | insert _ e => rw [Edit.insertAll, ih e]

namespace Edit.IsFirstWithin

variable {free : α → α → Bool} {bound : Nat} {a b : α} {as bs : List α}

/-- Nothing comes before an edit that begins with a pair but an edit that does so too. -/
theorem pair {e : Edit as bs} (h : e.IsFirstWithin free bound) :
    (Edit.pair a b e).IsFirstWithin free ((if free a b then 0 else 3) + bound) := by
  intro e' hcost
  cases e' with
  | pair _ _ e' =>
    rw [Edit.cost] at hcost
    exact (h e' (by omega)).imp (congrArg _) List.Lex.cons
  | insert _ e' => exact .inr (.rel (show Step.rank .pair < Step.rank .insert by decide))
  | delete _ e' => exact .inr (.rel (show Step.rank .pair < Step.rank .delete by decide))

/-- An edit that begins with an insertion comes first when edits that begin with a pair cost more. -/
theorem insert {e : Edit (a :: as) bs} (h : e.IsFirstWithin free bound)
    (hpair : ∀ e' : Edit as bs, 2 + bound < (Edit.pair a b e').cost free) :
    (Edit.insert b e).IsFirstWithin free (2 + bound) := by
  intro e' hcost
  cases e' with
  | pair _ _ e' => exact absurd hcost (Nat.not_le.mpr (hpair e'))
  | insert _ e' =>
    rw [Edit.cost] at hcost
    exact (h e' (by omega)).imp (congrArg _) List.Lex.cons
  | delete _ e' => exact .inr (.rel (show Step.rank .insert < Step.rank .delete by decide))

/-- An edit that begins with a deletion comes first when all others cost more. -/
theorem delete {e : Edit as (b :: bs)} (h : e.IsFirstWithin free bound)
    (hpair : ∀ e' : Edit as bs, 2 + bound < (Edit.pair a b e').cost free)
    (hinsert : ∀ e' : Edit (a :: as) bs, 2 + bound < (Edit.insert b e').cost free) :
    (Edit.delete a e).IsFirstWithin free (2 + bound) := by
  intro e' hcost
  cases e' with
  | pair _ _ e' => exact absurd hcost (Nat.not_le.mpr (hpair e'))
  | insert _ e' => exact absurd hcost (Nat.not_le.mpr (hinsert e'))
  | delete _ e' =>
    rw [Edit.cost] at hcost
    exact (h e' (by omega)).imp (congrArg _) List.Lex.cons

end Edit.IsFirstWithin

/-- An edit that begins with a pair costs no less than the plan that does. -/
theorem cost_pair_best_le {a b : α} {as bs : List α} (e : Edit as bs) :
    (Plan.pair (classify a b) a b (best classify as bs)).cost
      ≤ (Edit.pair a b e).cost (isFree classify) := by
  rw [Plan.cost_pair, Edit.cost]
  exact Nat.add_le_add_left (best_cost_le_cost classify e) _

/-- An edit that begins with an insertion costs no less than the plan that does. -/
theorem cost_insert_best_le {b : α} {as bs : List α} (e : Edit as bs) :
    (Plan.insert b (best classify as bs)).cost ≤ (Edit.insert b e).cost (isFree classify) := by
  rw [Plan.cost_insert, Edit.cost]
  exact Nat.add_le_add_left (best_cost_le_cost classify e) _

/-- **The best plan is that of the first among the cheapest edits.** -/
theorem exists_isFirstWithin (as bs : List α) :
    ∃ e : Edit as bs, e.plan classify = best classify as bs
      ∧ e.IsFirstWithin (isFree classify) (best classify as bs).cost := by
  induction as generalizing bs with
  | nil => exact ⟨Edit.insertAll bs, plan_insertAll classify bs, fun e' _ => .inl e'.eq_insertAll⟩
  | cons a as iha =>
    induction bs with
    | nil =>
      obtain ⟨e, he, hfirst⟩ := iha []
      refine ⟨.delete a e, by rw [Edit.plan, he, best_nil_right], fun e' hcost => ?_⟩
      rw [best_nil_right, Plan.cost_delete] at hcost
      cases e' with
      | delete _ e' =>
        rw [Edit.cost] at hcost
        exact (hfirst e' (by omega)).imp (congrArg _) List.Lex.cons
    | cons b bs ihb =>
      rw [best_cons]
      obtain ⟨h, -, -⟩ | ⟨h, hpair, -⟩ | ⟨h, hpair, hinsert⟩ :=
        choose_eq (Plan.pair (classify a b) a b (best classify as bs))
          (Plan.insert b (best classify (a :: as) bs)) (Plan.delete a (best classify as (b :: bs)))
      · obtain ⟨e, he, hfirst⟩ := iha bs
        refine ⟨.pair a b e, by rw [h, Edit.plan, he], ?_⟩
        rw [h, Plan.cost_pair]
        exact hfirst.pair
      · obtain ⟨e, he, hfirst⟩ := ihb
        refine ⟨.insert b e, by rw [h, Edit.plan, he], ?_⟩
        rw [Plan.cost_insert] at hpair
        rw [h, Plan.cost_insert]
        exact hfirst.insert fun e' => hpair.trans_le (cost_pair_best_le classify e')
      · obtain ⟨e, he, hfirst⟩ := iha (b :: bs)
        refine ⟨.delete a e, by rw [h, Edit.plan, he], ?_⟩
        rw [Plan.cost_delete] at hpair hinsert
        rw [h, Plan.cost_delete]
        exact hfirst.delete (fun e' => hpair.trans_le (cost_pair_best_le classify e'))
          fun e' => hinsert.trans_le (cost_insert_best_le classify e')

/-- **The alignment is the first of the cheapest edits**: it consists of the changes of an edit, no edit
of the two sequences costs less, and every other one that costs the same comes later in the order of
words over pair, insertion and deletion. Nothing is asked of the classifier. -/
theorem align_first_cheapest (original updated : List α) :
    ∃ e : Edit original updated, align classify original updated = (e.plan classify).changes
      ∧ ∀ e' : Edit original updated, e.cost (isFree classify) ≤ e'.cost (isFree classify)
        ∧ (e'.cost (isFree classify) = e.cost (isFree classify) → e' ≠ e → e.steps < e'.steps) := by
  obtain ⟨e, he, hfirst⟩ := exists_isFirstWithin classify original updated
  have hcost : e.cost (isFree classify) = (best classify original updated).cost := by
    rw [← cost_plan, he]
  refine ⟨e, by rw [align_eq_best, he], fun e' => ⟨?_, fun hsame hne => ?_⟩⟩
  · rw [hcost]
    exact best_cost_le_cost classify e'
  · exact (hfirst e' (hsame.trans hcost).le).resolve_left hne

end SlotSafe.Alignment
