/-!
# Alignment of two sequences

An alignment turns an original sequence into an updated one, step by step: it pairs an element of
each, inserts an updated element, or deletes an original one. A caller's classifier names what a
pair is. A pair named `equal` is free and any other costs 3, while every unpaired element costs 2,
so that one changed element is never reported as a deletion and an insertion.

`align` returns an alignment of least cost. Where several cost the same it takes the first step that
leads to one of them, trying a pair before an insertion and an insertion before a deletion.

The plan for the remaining elements of both sequences follows from three plans for fewer elements
(`best`). The plans for one rest of the original against every rest of the updated sequence form a
row, and each row is computed from the row below it (`row`), so that each pair is classified once;
`row_eq_map_best` says that the rows hold exactly the plans of the recursion.
-/

namespace SlotSafe

/-- One step of an alignment. -/
structure Change (α : Type) where
  action : String
  original : Option α
  updated : Option α
  deriving DecidableEq, Repr

namespace Action

/-- The action of a pair without difference. -/
def equal : String := "equal"

/-- The action of an updated element after the last original one. -/
def append : String := "append"

/-- The action of any other updated element that is not paired. -/
def insert : String := "insert"

/-- The action of an original element that is not paired. -/
def delete : String := "delete"

end Action

namespace Alignment

variable {α : Type}

/-- The cost of an inserted or appended element. -/
def insertionCost : Nat := 2

/-- The cost of a deleted element. -/
def deletionCost : Nat := 2

/-- The cost of a pair. -/
def pairCost (action : String) : Nat := if action = Action.equal then 0 else 3

/-- The changes that align two rests, and what they cost. -/
structure Plan (α : Type) where
  cost : Nat
  changes : List (Change α)

namespace Plan

/-- The plan for two sequences without elements. -/
def done : Plan α := ⟨0, []⟩

/-- First a pair, then the rest. -/
def pair (action : String) (a b : α) (p : Plan α) : Plan α :=
  ⟨p.cost + pairCost action, ⟨action, some a, some b⟩ :: p.changes⟩

/-- First an insertion, then the rest. -/
def insert (b : α) (p : Plan α) : Plan α :=
  ⟨p.cost + insertionCost, ⟨Action.insert, none, some b⟩ :: p.changes⟩

/-- First an element after the last original one, then the rest. -/
def append (b : α) (p : Plan α) : Plan α :=
  ⟨p.cost + insertionCost, ⟨Action.append, none, some b⟩ :: p.changes⟩

/-- First a deletion, then the rest. -/
def delete (a : α) (p : Plan α) : Plan α :=
  ⟨p.cost + deletionCost, ⟨Action.delete, some a, none⟩ :: p.changes⟩

/-- The cheapest of three first steps; of those that cost the same, a pair comes before an
insertion and an insertion before a deletion. -/
def choose (paired inserted deleted : Plan α) : Plan α :=
  if paired.cost ≤ inserted.cost ∧ paired.cost ≤ deleted.cost then paired
  else if inserted.cost ≤ deleted.cost then inserted
  else deleted

end Plan

open Plan

/-- Every updated element comes after the last original one. -/
def appendAll : List α → Plan α
  | [] => done
  | b :: bs => append b (appendAll bs)

/-- The best plan when `a` is the next original element, `rest` being the best plans for the
elements after it. -/
def bestWith (classify : α → α → String) (a : α) (rest : List α → Plan α) : List α → Plan α
  | [] => delete a (rest [])
  | b :: bs =>
    choose (pair (classify a b) a b (rest bs)) (insert b (bestWith classify a rest bs))
      (delete a (rest (b :: bs)))

/-- The best plan for two sequences. -/
def best (classify : α → α → String) : List α → List α → Plan α
  | [] => appendAll
  | a :: as => bestWith classify a (best classify as)

/-- The first plan of a row. -/
def head (plans : List (Plan α)) : Plan α := plans.headD done

/-- The row for an original element followed by the elements of the row below. -/
def extend (classify : α → α → String) (a : α) : List α → List (Plan α) → List (Plan α)
  | [], below => [delete a (head below)]
  | b :: bs, below =>
    let right := extend classify a bs below.tail
    choose (pair (classify a b) a b (head below.tail)) (insert b (head right))
      (delete a (head below)) :: right

/-- The row when no original element is left. -/
def lastRow : List α → List (Plan α)
  | [] => [done]
  | b :: bs =>
    let right := lastRow bs
    append b (head right) :: right

/-- The plans for an original sequence against every rest of an updated one, the longest first. -/
def row (classify : α → α → String) : List α → List α → List (Plan α)
  | [], bs => lastRow bs
  | a :: as, bs => extend classify a bs (row classify as bs)

/-- The number of pairs that are classified: each element of one sequence meets each of the other
once. -/
def comparisons (as bs : List α) : Nat := as.length * bs.length

/-- The rests of a sequence, the longest first. -/
def rests : List α → List (List α)
  | [] => [[]]
  | b :: bs => (b :: bs) :: rests bs

theorem head_cons (p : Plan α) (plans : List (Plan α)) : head (p :: plans) = p := rfl

theorem head_map_rests (f : List α → Plan α) (bs : List α) : head ((rests bs).map f) = f bs := by
  cases bs <;> rfl

theorem lastRow_eq_map (bs : List α) : lastRow bs = (rests bs).map appendAll := by
  induction bs with
  | nil => rfl
  | cons b bs ih => simp [lastRow, rests, ih, head_map_rests, appendAll]

theorem extend_eq_map (classify : α → α → String) (a : α) (rest : List α → Plan α)
    (bs : List α) :
    extend classify a bs ((rests bs).map rest) = (rests bs).map (bestWith classify a rest) := by
  induction bs with
  | nil => rfl
  | cons b bs ih =>
    simp only [extend, rests, List.map_cons, List.tail_cons, ih, head_map_rests, bestWith,
      head_cons]

/-- **The rows hold the plans of the recursion**, one for each rest of the updated sequence. -/
theorem row_eq_map_best (classify : α → α → String) (as bs : List α) :
    row classify as bs = (rests bs).map (best classify as) := by
  induction as with
  | nil => exact lastRow_eq_map bs
  | cons a as ih => rw [row, ih, extend_eq_map]; rfl

end Alignment

open SlotSafe.Alignment in
/-- The changes of a best alignment of two sequences. -/
def align {α : Type} (classify : α → α → String) (original updated : List α) : List (Change α) :=
  (head (row classify original updated)).changes

open SlotSafe.Alignment in
/-- The alignment is the one of the recursion. -/
theorem align_eq_best {α : Type} (classify : α → α → String) (original updated : List α) :
    align classify original updated = (best classify original updated).changes := by
  rw [align, row_eq_map_best, head_map_rests]

end SlotSafe
