import Mathlib.Algebra.Order.Group.Abs
import Mathlib.Algebra.Order.Group.Int
import Mathlib.Data.List.FinRange
import Mathlib.Data.List.Infix
import SlotSafe.Proofs.Edits

/-!
# The matrix of costs

The rows of plans that an alignment computes, from the whole original sequence down to none of it,
hold one cost for each place in both sequences: what it costs to align what is left of them from
there on (`costs`). A classifier takes part in this with the names of the pairs alone. They form a
table with a row for each original element and a column for each updated one, and the costs form a
matrix over it that has one row and one column more (`costMatrix`). Any table can occur, whatever
names it holds.

**Neighbouring costs are close** (`neighbouring_costs_close`). One element more on one side changes
the cost by 2 at most, which is what the element costs alone. One more on both sides never lowers
the cost, and it raises it by 3 at most, and by nothing where the pair is `equal`. The recurrence
itself shows only how far a cost can lie above its neighbours. That it lies no further below them is
a fact about all edits of what is left: an edit of the longer rests becomes one of the shorter rests
when the additional element is taken out, and its partner, if it had one, stands alone then.
-/

namespace SlotSafe.Alignment

variable {α β : Type}

/-! ## The costs in the rows -/

theorem rests_eq_tails (bs : List α) : rests bs = bs.tails := by
  induction bs with
  | nil => rfl
  | cons b bs ih => rw [rests, ih, List.tails_cons]

variable (classify : α → α → String)

theorem length_row (as bs : List α) : (row classify as bs).length = bs.length + 1 := by
  rw [row_eq_map_best, rests_eq_tails, List.length_map, List.length_tails]

/-- At each place of a row stands the best plan for what is left of the updated sequence. -/
theorem getElem_row (as bs : List α) (j : Nat) (h : j < (row classify as bs).length) :
    (row classify as bs)[j] = best classify as (bs.drop j) := by
  simp only [row_eq_map_best, rests_eq_tails, List.getElem_map, List.getElem_tails]

/-- **The costs of an alignment**: at `i` and `j` stands what the plan costs that the row for the
original elements from `i` on holds at the place `j`. -/
def costs (as bs : List α) (i : Fin (as.length + 1)) (j : Fin (bs.length + 1)) : Nat :=
  ((row classify (as.drop i) bs).get (j.cast (length_row classify (as.drop i) bs).symm)).cost

theorem costs_eq (as bs : List α) (i : Fin (as.length + 1)) (j : Fin (bs.length + 1)) :
    costs classify as bs i j = (best classify (as.drop i) (bs.drop j)).cost := by
  rw [costs, List.get_eq_getElem, getElem_row, Fin.val_cast]

/-- **A cost is the least of an edit** of what is left of both sequences. -/
theorem isLeast_costs (as bs : List α) (i : Fin (as.length + 1)) (j : Fin (bs.length + 1)) :
    IsLeast (Set.range fun e : Edit (as.drop i) (bs.drop j) => e.cost (isFree classify))
      (costs classify as bs i j) := by
  rw [costs_eq]
  obtain ⟨e, he⟩ := exists_plan_eq_best classify (as.drop i) (bs.drop j)
  refine ⟨⟨e, ?_⟩, ?_⟩
  · rw [← he, cost_plan]
  · rintro - ⟨e', rfl⟩
    exact best_cost_le_cost classify e'

/-! ## Neighbouring costs -/

/-- One more element on both sides never makes the alignment cheaper. An insertion or a deletion of
the one costs as much as the other one can save. -/
theorem cost_best_le_cons_cons (a : α) (as : List α) (b : α) (bs : List α) :
    (best classify as bs).cost ≤ (best classify (a :: as) (b :: bs)).cost := by
  rw [best_cons]
  obtain h | h | h := choose_cases (Plan.pair (classify a b) a b (best classify as bs))
    (Plan.insert b (best classify (a :: as) bs)) (Plan.delete a (best classify as (b :: bs)))
  · rw [h, Plan.cost_pair]
    exact Nat.le_add_left _ _
  · rw [h, Plan.cost_insert]
    exact cost_best_le_cons_left classify a as bs
  · rw [h, Plan.cost_delete]
    exact cost_best_le_cons_right classify as b bs

/-- **Costs over a table of actions whose neighbours are close.** -/
structure IsGradual {n m : Nat} (actions : Fin n → Fin m → String)
    (costs : Fin (n + 1) → Fin (m + 1) → Nat) : Prop where
  /-- One original element less changes the cost by 2 at most. -/
  below (i : Fin n) (j : Fin (m + 1)) : |(costs i.castSucc j : Int) - costs i.succ j| ≤ 2
  /-- One updated element less changes the cost by 2 at most. -/
  beside (i : Fin (n + 1)) (j : Fin m) : |(costs i j.castSucc : Int) - costs i j.succ| ≤ 2
  /-- One element less on both sides does not cost more. -/
  diagonal_le (i : Fin n) (j : Fin m) : costs i.succ j.succ ≤ costs i.castSucc j.castSucc
  /-- One element less on both sides saves 3 at most. -/
  le_diagonal (i : Fin n) (j : Fin m) : costs i.castSucc j.castSucc ≤ costs i.succ j.succ + 3
  /-- An `equal` pair less saves nothing. -/
  eq_diagonal (i : Fin n) (j : Fin m) (h : actions i j = Action.equal) :
    costs i.castSucc j.castSucc = costs i.succ j.succ

/-- Whether neighbours are close does not depend on how the size of the table is written. -/
theorem IsGradual.cast {n m n' m' : Nat} {actions : Fin n → Fin m → String}
    {costs : Fin (n + 1) → Fin (m + 1) → Nat} (h : IsGradual actions costs)
    (hn : n' = n) (hm : m' = m) :
    IsGradual (fun i j => actions (i.cast hn) (j.cast hm))
      fun i j => costs (i.cast (congrArg (· + 1) hn)) (j.cast (congrArg (· + 1) hm)) := by
  subst hn hm
  exact h

/-- **The table of actions** of two sequences, with a row for each original element. -/
def actionTable (as bs : List α) (i : Fin as.length) (j : Fin bs.length) : String :=
  classify (as.get i) (bs.get j)

/-- What is left from a place on is the element there and what is left behind it. -/
theorem drop_castSucc {as : List α} (i : Fin as.length) :
    as.drop i.castSucc = as.get i :: as.drop i.succ :=
  List.drop_eq_getElem_cons i.isLt

/-- The costs of an alignment are close to their neighbours. -/
theorem costs_isGradual (as bs : List α) :
    IsGradual (actionTable classify as bs) (costs classify as bs) where
  below i j := by
    rw [costs_eq, costs_eq, drop_castSucc]
    -- up by a deletion in front, and down by what leaving the element out can save
    have hmore := cost_best_delete_le classify (as.get i) (as.drop i.succ) (bs.drop j)
    have hless := cost_best_le_cons_left classify (as.get i) (as.drop i.succ) (bs.drop j)
    exact abs_sub_le_iff.mpr ⟨by omega, by omega⟩
  beside i j := by
    rw [costs_eq, costs_eq, drop_castSucc]
    have hmore := cost_best_insert_le classify (as.drop i) (bs.get j) (bs.drop j.succ)
    have hless := cost_best_le_cons_right classify (as.drop i) (bs.get j) (bs.drop j.succ)
    exact abs_sub_le_iff.mpr ⟨by omega, by omega⟩
  diagonal_le i j := by
    rw [costs_eq, costs_eq, drop_castSucc, drop_castSucc]
    exact cost_best_le_cons_cons classify _ _ _ _
  le_diagonal i j := by
    rw [costs_eq, costs_eq, drop_castSucc, drop_castSucc]
    have hpair := cost_best_pair_le classify (as.get i) (as.drop i.succ) (bs.get j)
      (bs.drop j.succ)
    split at hpair <;> omega
  eq_diagonal i j h := by
    have hfree : isFree classify (as.get i) (bs.get j) = true := beq_iff_eq.mpr h
    rw [costs_eq, costs_eq, drop_castSucc, drop_castSucc, best_cons_of_isFree classify hfree]
    rfl

/-! ## Costs of a table -/

variable {classify}

/-- **Costs only depend on which pairs are free**: the pictures of two sequences are aligned at the
cost of the sequences. -/
theorem cost_best_map {classify' : β → β → String} {f : α → β} {as bs : List α}
    (h : ∀ a ∈ as, ∀ b ∈ bs, isFree classify a b = isFree classify' (f a) (f b)) :
    (best classify' (as.map f) (bs.map f)).cost = (best classify as bs).cost := by
  refine le_antisymm ((le_cost_best_iff classify).mpr fun e => ?_)
    ((le_cost_best_iff classify').mpr fun e => ?_)
  · obtain ⟨e', he'⟩ := e.exists_map_cost_eq h
    exact (best_cost_le_cost classify' e').trans he'.le
  · obtain ⟨e', he'⟩ := e.exists_cost_eq_of_map rfl rfl h
    exact (best_cost_le_cost classify e').trans he'.le

variable {n m : Nat}

/-- A table of actions as a classifier of the numbers of its rows and columns. Only a row is ever
paired with a column. -/
def classifyBy (actions : Fin n → Fin m → String) : Fin n ⊕ Fin m → Fin n ⊕ Fin m → String
  | .inl i, .inr j => actions i j
  | _, _ => Action.equal

/-- The numbers of the rows of a table. -/
def rowNumbers (n m : Nat) : List (Fin n ⊕ Fin m) := (List.finRange n).map .inl

/-- The numbers of the columns of a table. -/
def columnNumbers (n m : Nat) : List (Fin n ⊕ Fin m) := (List.finRange m).map .inr

theorem length_rowNumbers : (rowNumbers n m).length = n := by
  rw [rowNumbers, List.length_map, List.length_finRange]

theorem length_columnNumbers : (columnNumbers n m).length = m := by
  rw [columnNumbers, List.length_map, List.length_finRange]

/-- **The cost matrix of a table of actions**: the costs of aligning the numbers of its rows with
those of its columns. -/
def costMatrix (actions : Fin n → Fin m → String) (i : Fin (n + 1)) (j : Fin (m + 1)) : Nat :=
  costs (classifyBy actions) (rowNumbers n m) (columnNumbers n m)
    (i.cast (congrArg (· + 1) length_rowNumbers.symm))
    (j.cast (congrArg (· + 1) length_columnNumbers.symm))

/-- The table of the numbers is the table. -/
theorem actionTable_classifyBy (actions : Fin n → Fin m → String) (i : Fin n) (j : Fin m) :
    actionTable (classifyBy actions) (rowNumbers n m) (columnNumbers n m)
      (i.cast length_rowNumbers.symm) (j.cast length_columnNumbers.symm) = actions i j := by
  have hrow : (rowNumbers n m).get (i.cast length_rowNumbers.symm) = .inl i :=
    (List.getElem_map _).trans (congrArg Sum.inl (List.getElem_finRange _))
  have hcolumn : (columnNumbers n m).get (j.cast length_columnNumbers.symm) = .inr j :=
    (List.getElem_map _).trans (congrArg Sum.inr (List.getElem_finRange _))
  rw [actionTable, hrow, hcolumn, classifyBy]

/-- The cost matrix of a table is close to its neighbours. -/
theorem costMatrix_isGradual (actions : Fin n → Fin m → String) :
    IsGradual actions (costMatrix actions) := by
  have h := (costs_isGradual (classifyBy actions) (rowNumbers n m) (columnNumbers n m)).cast
    length_rowNumbers.symm length_columnNumbers.symm
  rwa [funext₂ (actionTable_classifyBy actions)] at h

/-- The element with a number: an original one for a row, and an updated one for a column. -/
def elementOf (as bs : List α) : Fin as.length ⊕ Fin bs.length → α := Sum.elim as.get bs.get

theorem map_rowNumbers (as bs : List α) :
    (rowNumbers as.length bs.length).map (elementOf as bs) = as :=
  (List.map_map ..).trans (List.map_get_finRange as)

theorem map_columnNumbers (as bs : List α) :
    (columnNumbers as.length bs.length).map (elementOf as bs) = bs :=
  (List.map_map ..).trans (List.map_get_finRange bs)

/-- **Two sequences are aligned at the costs of their table**, whatever their elements are. -/
theorem costs_eq_costMatrix (classify : α → α → String) (as bs : List α) :
    costs classify as bs = costMatrix (actionTable classify as bs) := by
  funext i j
  have hfree : ∀ x ∈ (rowNumbers as.length bs.length).drop i,
      ∀ y ∈ (columnNumbers as.length bs.length).drop j,
        isFree (classifyBy (actionTable classify as bs)) x y
          = isFree classify (elementOf as bs x) (elementOf as bs y) := by
    intro x hx y hy
    obtain ⟨k, -, rfl⟩ := List.mem_map.mp (List.mem_of_mem_drop hx)
    obtain ⟨l, -, rfl⟩ := List.mem_map.mp (List.mem_of_mem_drop hy)
    rfl
  have hcost := cost_best_map hfree
  rw [List.map_drop, List.map_drop, map_rowNumbers, map_columnNumbers] at hcost
  rw [costMatrix, costs_eq, costs_eq, hcost]
  rfl

/-- **Neighbouring costs are close.** Whatever a table of actions holds, its cost matrix changes by
2 at most from one row or column to the next. Along a diagonal it does not rise, and it falls by 3
at most and by nothing where the pair is `equal`. Every alignment has such a matrix: the rows of
plans for two sequences hold the costs of the table of their pairs, and each of these is the least
cost of an edit of what is left. -/
theorem neighbouring_costs_close :
    (∀ {n m : Nat} (actions : Fin n → Fin m → String), IsGradual actions (costMatrix actions))
    ∧ ∀ {α : Type} (classify : α → α → String) (as bs : List α),
        costs classify as bs = costMatrix (actionTable classify as bs)
        ∧ ∀ (i : Fin (as.length + 1)) (j : Fin (bs.length + 1)), IsLeast
            (Set.range fun e : Edit (as.drop i) (bs.drop j) => e.cost (isFree classify))
            (costs classify as bs i j) :=
  ⟨costMatrix_isGradual,
    fun classify as bs => ⟨costs_eq_costMatrix classify as bs, isLeast_costs classify as bs⟩⟩

/-- The table of two fields that change places. -/
def exchanged (i j : Fin 2) : String := if i = j then "replace" else Action.equal

/-- Where two fields change places all bounds are attained: the first row falls and rises by 2, the
last pair costs 3, and the pairs of a field with itself cost nothing. -/
theorem costMatrix_exchanged :
    List.ofFn (fun i => List.ofFn (costMatrix exchanged i)) = [[4, 2, 4], [2, 3, 2], [4, 2, 0]]
    ∧ exchanged 1 0 = Action.equal
    ∧ costMatrix exchanged 1 0 = costMatrix exchanged 2 1
    ∧ |(costMatrix exchanged 0 0 : Int) - costMatrix exchanged 0 1| ≤ 2
    ∧ costMatrix exchanged 1 1 ≤ costMatrix exchanged 2 2 + 3 :=
  have hgradual := neighbouring_costs_close.1 exchanged
  ⟨by decide, rfl, hgradual.eq_diagonal 1 0 rfl, hgradual.beside 0 0, hgradual.le_diagonal 1 1⟩

end SlotSafe.Alignment
