import Mathlib.Data.List.Chain
import Mathlib.Data.List.Forall2
import SlotSafe.Proofs.Coverage
import SlotSafe.Proofs.FirstCheapest
import SlotSafe.Proofs.Insertions

/-!
# Laws of the alignment

What is stated here holds of any two sequences and any classifier, whether what it names `equal` has
to do with being equal or not, and whatever other names it gives.

**The steps of an alignment give both sequences back** (`align_reconstructs`): the original elements
in them are the original sequence, the updated ones the updated sequence, and a step is named by
what it takes. Only an updated element that stands alone could be named in two ways. It is appended
when the steps before it have used up the original sequence, and inserted before that.

**A start without difference is aligned with itself** (`align_of_shared_start`), even where its
elements would do as partners further on. What comes after it is aligned as if the start were not
there, so that an unchanged start of a layout takes no part in what is reported.

**A change in place is never split** into a deletion and an insertion (`align_unsplit`). That holds
of every cheapest edit, however ties are broken: a pair costs less than two elements that stand
alone, and what is left of a cheapest edit after its first steps is a cheapest edit again.
-/

namespace SlotSafe

namespace Alignment

variable {α : Type}

/-! ## The names of the steps -/

/-- **The name of a step**, with the original sequence and the steps before it. -/
inductive NamedAfter (classify : α → α → String) (as : List α) (before : List (Change α)) :
    Change α → Prop where
  | pair (a b : α) : NamedAfter classify as before ⟨classify a b, some a, some b⟩
  | delete (a : α) : NamedAfter classify as before ⟨Action.delete, some a, none⟩
  | append (b : α) (hall : before.filterMap Change.original = as) :
      NamedAfter classify as before ⟨Action.append, none, some b⟩
  | insert (b : α) (hsome : before.filterMap Change.original ≠ as) :
      NamedAfter classify as before ⟨Action.insert, none, some b⟩

/-- Whether every step has the name that it is to have after those before it. -/
def AllNamed (classify : α → α → String) (as : List α) (changes : List (Change α)) : Prop :=
  ∀ before c after, changes = before ++ c :: after → NamedAfter classify as before c

section

variable {classify : α → α → String} {as : List α}

/-- A step in front of all others takes its original element from the front of the sequence. -/
theorem NamedAfter.cons {before : List (Change α)} {c : Change α} (d : Change α)
    (h : NamedAfter classify as before c) :
    NamedAfter classify (d.original.toList ++ as) (d :: before) c := by
  have htaken : (d :: before).filterMap Change.original
      = d.original.toList ++ before.filterMap Change.original := by
    rw [List.filterMap_cons]
    cases d.original <;> rfl
  cases h with
  | pair a b => exact .pair a b
  | delete a => exact .delete a
  | append b hall => exact .append b (htaken.trans (congrArg _ hall))
  | insert b hsome =>
    exact .insert b fun hall => hsome (List.append_cancel_left (htaken.symm.trans hall))

theorem AllNamed.cons {changes : List (Change α)} (d : Change α)
    (hd : NamedAfter classify (d.original.toList ++ as) [] d) (h : AllNamed classify as changes) :
    AllNamed classify (d.original.toList ++ as) (d :: changes) := by
  intro before c after hsplit
  cases before with
  | nil =>
    obtain ⟨rfl, -⟩ := List.cons.inj hsplit
    exact hd
  | cons b before =>
    obtain ⟨rfl, hrest⟩ := List.cons.inj hsplit
    exact (h before c after hrest).cons d

/-- **The steps of a plan have their names.** -/
theorem Edit.allNamed_plan {bs : List α} (e : Edit as bs) :
    AllNamed classify as (e.plan classify).changes := by
  induction e with
  | done => exact fun before c after h => absurd h (by simp [plan, Plan.done])
  | pair a b e ih => exact ih.cons ⟨classify a b, some a, some b⟩ (.pair a b)
  | @insert b as bs e ih =>
    cases as with
    | nil => exact ih.cons ⟨Action.append, none, some b⟩ (.append b rfl)
    | cons a as =>
      exact ih.cons ⟨Action.insert, none, some b⟩ (.insert b (List.cons_ne_nil a as).symm)
  | delete a e ih => exact ih.cons ⟨Action.delete, some a, none⟩ (.delete a)

end

/-- **The alignment reconstructs both sequences.** The original elements of its steps are the
original sequence, the updated ones the updated sequence, each in its order. A step with both is
named as the classifier names the pair, and one with an original element alone is a deletion. One
with an updated element alone is an addition at the end if all original elements are in the steps
before it, and an insertion otherwise. -/
theorem align_reconstructs (classify : α → α → String) (original updated : List α) :
    (align classify original updated).filterMap Change.original = original
    ∧ (align classify original updated).filterMap Change.updated = updated
    ∧ ∀ before c after, align classify original updated = before ++ c :: after →
        NamedAfter classify original before c := by
  obtain ⟨e, he⟩ := exists_plan_eq_best classify original updated
  rw [align_eq_best, ← he]
  exact ⟨e.originals_plan classify, e.updated_plan classify, e.allNamed_plan⟩

/-! ## Starts without difference -/

/-- The step of a pair without difference. -/
def stepOfEqual (p : α × α) : Change α := ⟨Action.equal, some p.1, some p.2⟩

/-- **Pairs without difference are taken one after the other**, since each is the free pair at the
front of what is left. -/
theorem align_append (classify : α → α → String) {ps qs : List α}
    (h : List.Forall₂ (fun x y => classify x y = Action.equal) ps qs) (as bs : List α) :
    align classify (ps ++ as) (qs ++ bs)
      = (ps.zip qs).map stepOfEqual ++ align classify as bs := by
  rw [align_eq_best, align_eq_best]
  induction h with
  | nil => rfl
  | @cons x y ps qs hxy h ih =>
    have hfree : isFree classify x y = true := beq_iff_eq.mpr hxy
    rw [List.cons_append, List.cons_append, best_cons_of_isFree classify hfree, List.zip_cons_cons,
      List.map_cons, List.cons_append, ← ih]
    rfl

/-! ## Changes in place -/

/-- What one step of an alignment does, by the elements that it takes. -/
def stepOf (c : Change α) : Step :=
  match c.original, c.updated with
  | some _, none => .delete
  | none, some _ => .insert
  | _, _ => .pair

/-- **Two neighbouring steps split a change** when one of them takes an original element alone and
the other one an updated element alone. -/
def Splits (s t : Step) : Prop := (s = .delete ∧ t = .insert) ∨ (s = .insert ∧ t = .delete)

instance (s t : Step) : Decidable (Splits s t) := inferInstanceAs (Decidable (_ ∨ _))

/-- **An edit that costs no more than any other one.** -/
def Edit.IsCheapest (free : α → α → Bool) {as bs : List α} (e : Edit as bs) : Prop :=
  ∀ e' : Edit as bs, e.cost free ≤ e'.cost free

namespace Edit.IsCheapest

variable {free : α → α → Bool} {a b : α} {as bs : List α} {e : Edit as bs}

/-- What follows the first step of a cheapest edit is a cheapest edit. -/
theorem of_pair (h : (Edit.pair a b e).IsCheapest free) : e.IsCheapest free := fun e' =>
  Nat.le_of_add_le_add_left (h (.pair a b e'))

theorem of_insert (h : (Edit.insert b e).IsCheapest free) : e.IsCheapest free := fun e' =>
  Nat.le_of_add_le_add_left (h (.insert b e'))

theorem of_delete (h : (Edit.delete a e).IsCheapest free) : e.IsCheapest free := fun e' =>
  Nat.le_of_add_le_add_left (h (.delete a e'))

/-- The pair costs 3 at most, and an insertion with a deletion 4. -/
theorem cost_pair_lt (free : α → α → Bool) (a b : α) (e : Edit as bs) :
    (Edit.pair a b e).cost free < 2 + (2 + e.cost free) := by
  rw [cost]
  split <;> omega

/-- **The steps of a cheapest edit split no change**: a pair would have been cheaper. -/
theorem isChain_steps (h : e.IsCheapest free) : e.steps.IsChain fun s t => ¬Splits s t := by
  induction e with
  | done => exact .nil
  | pair a b e ih => exact List.isChain_cons.mpr ⟨fun t _ => by simp [Splits], ih h.of_pair⟩
  | insert b e ih =>
    refine List.isChain_cons.mpr ⟨fun t ht => ?_, ih h.of_insert⟩
    cases e with
    | done => cases ht
    | delete a e => exact absurd (h (.pair a b e)) (Nat.not_le.mpr (cost_pair_lt free a b e))
    | pair | insert =>
      obtain rfl := Option.some.inj ht
      decide
  | delete a e ih =>
    refine List.isChain_cons.mpr ⟨fun t ht => ?_, ih h.of_delete⟩
    cases e with
    | done => cases ht
    | insert b e => exact absurd (h (.pair a b e)) (Nat.not_le.mpr (cost_pair_lt free a b e))
    | pair | delete =>
      obtain rfl := Option.some.inj ht
      decide

end Edit.IsCheapest

/-- The changes of a plan take what the steps of its edit do. -/
theorem Edit.map_stepOf_plan (classify : α → α → String) {as bs : List α} (e : Edit as bs) :
    (e.plan classify).changes.map stepOf = e.steps := by
  induction e with
  | done => rfl
  | pair a b e ih => exact congrArg (Step.pair :: ·) ih
  | @insert b as bs e ih => cases as <;> exact congrArg (Step.insert :: ·) ih
  | delete a e ih => exact congrArg (Step.delete :: ·) ih

/-- Where no change is split, steps in a row that each take one element alone all take it from the
same side. -/
theorem all_delete_or_all_insert {run : List Step} (h : run.IsChain fun s t => ¬Splits s t)
    (hunpaired : ∀ s ∈ run, s ≠ .pair) : (∀ s ∈ run, s = .delete) ∨ ∀ s ∈ run, s = .insert := by
  induction run with
  | nil => exact .inl (List.forall_mem_nil _)
  | cons s run ih =>
    obtain ⟨hs, hrun⟩ := List.forall_mem_cons.mp hunpaired
    obtain ⟨hnext, hchain⟩ := List.isChain_cons.mp h
    cases run with
    | nil => cases s <;> simp_all
    | cons t run =>
      -- the step behind the first one decides for the whole run
      have hst := hnext t rfl
      refine (ih hchain hrun).imp (fun hall => ?_) fun hall => ?_
      all_goals
        refine List.forall_mem_cons.mpr ⟨?_, hall⟩
        have ht := hall t List.mem_cons_self
        cases s <;> simp_all [Splits]

/-- **A change in place is never split.** No deletion stands beside an insertion or an addition at
the end, in either order, and so whatever run of steps takes elements of one sequence alone is all
deletions or all insertions. -/
theorem align_unsplit (classify : α → α → String) (original updated : List α) :
    ((align classify original updated).IsChain fun c d => ¬Splits (stepOf c) (stepOf d))
    ∧ ∀ before run after, align classify original updated = before ++ run ++ after →
        (∀ c ∈ run, stepOf c ≠ .pair) →
        (∀ c ∈ run, stepOf c = .delete) ∨ ∀ c ∈ run, stepOf c = .insert := by
  obtain ⟨e, he⟩ := exists_plan_eq_best classify original updated
  have hcheapest : e.IsCheapest (isFree classify) := fun e' => by
    rw [← cost_plan, he]
    exact best_cost_le_cost classify e'
  have hchain :
      (align classify original updated).IsChain fun c d => ¬Splits (stepOf c) (stepOf d) := by
    rw [align_eq_best, ← he]
    have hsteps := hcheapest.isChain_steps
    rw [← e.map_stepOf_plan classify] at hsteps
    exact (List.isChain_map stepOf).mp hsteps
  refine ⟨hchain, fun before run after hsplit hunpaired => ?_⟩
  have hrun := hchain.infix ⟨before, after, hsplit.symm⟩
  have hsteps := all_delete_or_all_insert ((List.isChain_map stepOf).mpr hrun)
    (List.forall_mem_map.mpr hunpaired)
  exact hsteps.imp List.forall_mem_map.mp List.forall_mem_map.mp

end Alignment

namespace Upgrade

open SlotSafe.Alignment

/-- What is reported are the steps of the alignment that are no additions and need a report. -/
theorem unsafeSteps_eq (original updated : Layout) :
    unsafeSteps original updated
      = (withoutAdditions (alignment original updated)).filter needsReport :=
  List.filter_congr fun c _ => (needsReport_eq c).symm

/-- Pairs without difference add nothing to what is reported. -/
theorem filter_needsReport_append (ps : List (Item × Item)) (changes : List (Change Item)) :
    (withoutAdditions (ps.map stepOfEqual ++ changes)).filter needsReport
      = (withoutAdditions changes).filter needsReport := by
  have hpairs : (withoutAdditions (ps.map stepOfEqual)).filter needsReport = [] := by
    refine List.filter_eq_nil_iff.mpr fun c hc => ?_
    obtain ⟨p, -, rfl⟩ := List.mem_map.mp (List.mem_of_mem_filter hc)
    exact (by decide :
      ¬ (Action.equal != Action.equal && Action.equal != Action.typechange) = true)
  unfold withoutAdditions at hpairs ⊢
  rw [List.filter_append, List.filter_append, hpairs, List.nil_append]

/-- **A start without difference is aligned with itself**, and what comes after it as if it were not
there. So where two layouts begin with the same fields, what is reported is what there is to report
about the rests. -/
theorem align_of_shared_start :
    (∀ {α : Type} (classify : α → α → String) {ps qs : List α},
      List.Forall₂ (fun x y => classify x y = Action.equal) ps qs → ∀ as bs : List α,
        align classify (ps ++ as) (qs ++ bs)
          = (ps.zip qs).map stepOfEqual ++ align classify as bs)
    ∧ ∀ {original updated : Layout} {ps qs as bs : List Item},
      original.items = ps ++ as → updated.items = qs ++ bs →
      List.Forall₂ (fun o u => sameField original updated o u = true) ps qs →
        errors original updated
          = ((withoutAdditions (align (classify original updated) as bs)).filter
              needsReport).map report := by
  refine ⟨fun classify _ _ => align_append classify, fun horiginal hupdated h => ?_⟩
  have hstart := h.imp fun _ _ => classify_of_sameField
  rw [errors, unsafeSteps_eq, alignment, horiginal, hupdated, align_append _ hstart,
    filter_needsReport_append]

/-- Where every number that is no smaller passes for equal, the start has partners further on too.
Of two layouts that begin with the same two fields, the first of which comes again, only the type
that changes behind them is reported. -/
theorem align_of_start_repeated :
    List.Forall₂ (fun x y : Nat => (if x ≤ y then Action.equal else "smaller") = Action.equal)
      [1, 1] [2, 1]
    ∧ align (fun x y : Nat => if x ≤ y then Action.equal else "smaller") [1, 1, 3] [2, 1, 1, 1]
      = [⟨Action.equal, some 1, some 2⟩, ⟨Action.equal, some 1, some 1⟩,
        ⟨"smaller", some 3, some 1⟩, ⟨Action.append, none, some 1⟩]
    ∧ (errors (.ofFields [("owner", "address"), ("fee", "uint256"), ("owner", "address")])
        (.ofFields [("owner", "address"), ("fee", "uint256"), ("owner", "uint256")])).map (·.action)
      = [Action.rename] := by
  have hnumbers : List.Forall₂
      (fun x y : Nat => (if x ≤ y then Action.equal else "smaller") = Action.equal)
      [1, 1] [2, 1] := .cons rfl (.cons rfl .nil)
  have horiginal : (Layout.ofFields
        [("owner", "address"), ("fee", "uint256"), ("owner", "address")]).items
      = (Layout.ofFields [("owner", "address"), ("fee", "uint256")]).items
        ++ (Layout.ofFields [("owner", "address")]).items := rfl
  have hupdated : (Layout.ofFields
        [("owner", "address"), ("fee", "uint256"), ("owner", "uint256")]).items
      = (Layout.ofFields [("owner", "address"), ("fee", "uint256")]).items
        ++ (Layout.ofFields [("owner", "uint256")]).items := rfl
  refine ⟨hnumbers, ?_, ?_⟩
  · rw [show [1, 1, 3] = [1, 1] ++ [3] from rfl, show [2, 1, 1, 1] = [2, 1] ++ [1, 1] from rfl,
      align_of_shared_start.1 _ hnumbers]
    decide
  · rw [align_of_shared_start.2 horiginal hupdated (.cons (by decide) (.cons (by decide) .nil))]
    decide

end Upgrade

end SlotSafe
