import Mathlib.Data.List.Forall2
import SlotSafe.Proofs.Verdict

/-!
# Every variable is accounted for once

What a maintainer reads off a report is complete: every original variable stands in exactly one
operation, in the order of the slots, and so does every updated variable up to the last one that is
not merely added at the end (`operations_account_for`). Nothing in the walk that finds the
operations is local to one of the sequences, so a slip at either end would lose a variable without
a trace.

The plan of any edit uses up both sequences step by step, which is an induction on the edit. What
is left then is the boundary between insertions and additions: **an element is appended only when
no original one is left**, so that the appended ones stand together at the end of the plan, and
leaving them out cuts the updated sequence at one place.
-/

namespace SlotSafe

namespace Alignment

variable {α : Type}

/-- The step that adds an element at the end. -/
def stepOfAddition (b : α) : Change α := ⟨Action.append, none, some b⟩

/-- The steps of a plan that are not additions at the end. -/
def withoutAdditions (changes : List (Change α)) : List (Change α) :=
  changes.filter fun c => c.action != Action.append

theorem withoutAdditions_append (steps : List (Change α)) (added : List α)
    (h : ∀ c ∈ steps, c.action ≠ Action.append) :
    withoutAdditions (steps ++ added.map stepOfAddition) = steps := by
  unfold withoutAdditions
  rw [List.filter_append, List.filter_eq_self.mpr (fun c hc => bne_iff_ne.mpr (h c hc)),
    List.filter_eq_nil_iff.mpr, List.append_nil]
  intro c hc
  obtain ⟨b, -, rfl⟩ := List.mem_map.mp hc
  simp [stepOfAddition]

variable (classify : α → α → String)

namespace Edit

/-- **The plan of an edit uses up the original sequence.** -/
theorem originals_plan {as bs : List α} (e : Edit as bs) :
    (e.plan classify).changes.filterMap Change.original = as := by
  induction e with
  | done => rfl
  | pair a b e ih => simp [plan, Plan.pair, ih]
  | @insert b as bs e ih => cases as <;> simpa [plan, Plan.append, Plan.insert] using ih
  | delete a e ih => simp [plan, Plan.delete, ih]

/-- **The plan of an edit uses up the updated sequence.** -/
theorem updated_plan {as bs : List α} (e : Edit as bs) :
    (e.plan classify).changes.filterMap Change.updated = bs := by
  induction e with
  | done => rfl
  | pair a b e ih => simp [plan, Plan.pair, ih]
  | @insert b as bs e ih => cases as <;> simp [plan, Plan.append, Plan.insert, ih]
  | delete a e ih => simpa [plan, Plan.delete] using ih

/-- No step of a plan is about nothing. -/
theorem exists_side_of_mem_plan {as bs : List α} (e : Edit as bs) {c : Change α}
    (h : c ∈ (e.plan classify).changes) : ∃ a, c.updated.or c.original = some a := by
  induction e with
  | done => exact absurd h List.not_mem_nil
  | pair a b e ih =>
    obtain rfl | hmem := List.mem_cons.mp h
    · exact ⟨b, rfl⟩
    · exact ih hmem
  | @insert b as bs e ih =>
    cases as <;>
    · obtain rfl | hmem := List.mem_cons.mp h
      · exact ⟨b, rfl⟩
      · exact ih hmem
  | delete a e ih =>
    obtain rfl | hmem := List.mem_cons.mp h
    · exact ⟨a, rfl⟩
    · exact ih hmem

variable {classify}

/-- **Additions stand together at the end of a plan**, where no original element is left. -/
theorem exists_additions (hpair : ∀ a b, classify a b ≠ Action.append) {as bs : List α}
    (e : Edit as bs) :
    ∃ (steps : List (Change α)) (added : List α),
      (e.plan classify).changes = steps ++ added.map stepOfAddition
      ∧ (∀ c ∈ steps, c.action ≠ Action.append) ∧ (as = [] → steps = []) := by
  induction e with
  | done => exact ⟨[], [], rfl, by simp, fun _ => rfl⟩
  | pair a b e ih =>
    obtain ⟨steps, added, hchanges, hsteps, -⟩ := ih
    refine ⟨_ :: steps, added, congrArg (List.cons _) hchanges, ?_, by simp⟩
    exact List.forall_mem_cons.mpr ⟨hpair a b, hsteps⟩
  | @insert b as bs e ih =>
    obtain ⟨steps, added, hchanges, hsteps, hnil⟩ := ih
    cases as with
    | nil =>
      -- no original element is left, so this one is added, and so are all behind it
      obtain rfl := hnil rfl
      exact ⟨[], b :: added, congrArg (List.cons _) hchanges, by simp, fun _ => rfl⟩
    | cons a as =>
      refine ⟨_ :: steps, added, congrArg (List.cons _) hchanges, ?_, by simp⟩
      exact List.forall_mem_cons.mpr ⟨(by decide : Action.insert ≠ Action.append), hsteps⟩
  | delete a e ih =>
    obtain ⟨steps, added, hchanges, hsteps, -⟩ := ih
    refine ⟨_ :: steps, added, congrArg (List.cons _) hchanges, ?_, by simp⟩
    exact List.forall_mem_cons.mpr ⟨(by decide : Action.delete ≠ Action.append), hsteps⟩

end Edit

variable {classify}

/-- **The alignment accounts for both sequences.** Without the additions it uses up the original
one, and the updated one up to the elements that are added. -/
theorem align_accounts_for (hpair : ∀ a b, classify a b ≠ Action.append) (as bs : List α) :
    (withoutAdditions (align classify as bs)).filterMap Change.original = as
    ∧ ∃ added, align classify as bs
          = withoutAdditions (align classify as bs) ++ added.map stepOfAddition
        ∧ (withoutAdditions (align classify as bs)).filterMap Change.updated ++ added = bs := by
  obtain ⟨e, he⟩ := exists_plan_eq_best classify as bs
  obtain ⟨steps, added, hchanges, hsteps, -⟩ := e.exists_additions hpair
  have horiginals := e.originals_plan classify
  have hupdated := e.updated_plan classify
  have halign : align classify as bs = steps ++ added.map stepOfAddition := by
    rw [align_eq_best, ← he, hchanges]
  rw [hchanges, List.filterMap_append] at horiginals hupdated
  have hnone : (added.map stepOfAddition).filterMap Change.original = [] := by
    simp [List.filterMap_map, Function.comp_def, stepOfAddition]
  have hsome : (added.map stepOfAddition).filterMap Change.updated = added := by
    simp [List.filterMap_map, Function.comp_def, stepOfAddition]
  rw [halign, withoutAdditions_append steps added hsteps]
  refine ⟨?_, added, rfl, ?_⟩
  · rw [hnone, List.append_nil] at horiginals
    exact horiginals
  · rw [hsome] at hupdated
    exact hupdated

end Alignment

namespace Upgrade

open SlotSafe.Alignment

/-- **A record tells of a step**: what happens, and the place and the name of the updated variable,
or of the original one where there is no updated one. -/
structure Tells (e : UpgradeError) (c : Change Item) : Prop where
  action : e.action = c.action
  item : ∃ item, (c.updated = some item ∨ c.updated = none ∧ c.original = some item)
    ∧ e.location = item.src ∧ e.label = item.label

/-- Whether a step is neither a pair without difference nor a change of the name alone. -/
def needsReport (c : Change Item) : Bool :=
  c.action != Action.equal && c.action != Action.typechange

theorem needsReport_eq (c : Change Item) : needsReport c = !Action.isSafe c.action := by
  unfold needsReport Action.isSafe
  rw [Bool.not_or]
  rfl

variable (original updated : Layout)

/-- The report of an operation tells of it, since no operation is about nothing. -/
theorem tells_report {c : Change Item} (h : c ∈ operations original updated) :
    Tells (report c) c := by
  have hmem : c ∈ alignment original updated := (List.mem_filter.mp h).1
  obtain ⟨e, he⟩ := exists_plan_eq_best (classify original updated) original.items updated.items
  rw [alignment_eq_best, ← he] at hmem
  obtain ⟨item, hitem⟩ := e.exists_side_of_mem_plan _ hmem
  unfold report
  rw [hitem]
  refine ⟨rfl, item, ?_, rfl, rfl⟩
  obtain hupdated | ⟨hnone, horiginal⟩ := Option.or_eq_some_iff.mp hitem
  · exact Or.inl hupdated
  · exact Or.inr ⟨hnone, horiginal⟩

/-- The check fails when a step needs a report. -/
theorem check_ne_ok_iff_needsReport :
    check original updated ≠ .ok () ↔ ∃ c ∈ operations original updated, needsReport c = true := by
  rw [Ne, check_eq_ok_iff_unsafeSteps, unsafeSteps, List.filter_eq_nil_iff]
  simp [needsReport_eq]

/-- **No variable is lost, and none is reported twice.** The original variables of the operations,
in order, are those of the original layout. The updated ones are a start of the updated layout, and
the variables behind them are the ones that the alignment appends. The check fails exactly when an
operation is neither a pair without difference nor a change of the name alone; it then gives one
record for each of these, in their order, with what happens, and the place and the name of the
updated variable or, where there is none, of the original one. -/
theorem operations_account_for :
    (operations original updated).filterMap Change.original = original.items
    ∧ (∃ added, alignment original updated
          = operations original updated ++ added.map stepOfAddition
        ∧ (operations original updated).filterMap Change.updated ++ added = updated.items
        ∧ ∀ c ∈ operations original updated, c.action ≠ Action.append)
    ∧ (check original updated ≠ .ok () ↔
        ∃ c ∈ operations original updated, needsReport c = true)
    ∧ (check original updated ≠ .ok () → ∃ es, check original updated = .error (.incompatible es)
        ∧ List.Forall₂ Tells es ((operations original updated).filter needsReport)) := by
  obtain ⟨horiginals, added, halignment, hupdated⟩ :=
    align_accounts_for (classify_ne_append original updated) original.items updated.items
  refine ⟨horiginals, ⟨added, halignment, hupdated, fun c hc => ?_⟩,
    check_ne_ok_iff_needsReport original updated, fun hcheck => ⟨errors original updated, ?_, ?_⟩⟩
  · exact bne_iff_ne.mp (List.mem_filter.mp hc).2
  · unfold check at hcheck ⊢
    split at hcheck
    · exact absurd rfl hcheck
    · next hnonempty => rw [if_neg hnonempty]
  · have hfilter : (operations original updated).filter needsReport
        = unsafeSteps original updated :=
      List.filter_congr (fun c _ => needsReport_eq c)
    rw [hfilter, errors, List.forall₂_map_left_iff, List.forall₂_same]
    intro c hc
    exact tells_report original updated (List.mem_filter.mp hc).1

end Upgrade

end SlotSafe
