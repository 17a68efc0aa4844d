import Mathlib.Data.List.Forall2
import SlotSafe.Proofs.Coverage

/-!
# What the operations depend on

Between two compilations of one source nearly everything in a layout may change but the names and
the types as the compiler writes them: keys of types hold numbers of the syntax tree, source
references move, tables of types are ordered anew. **None of this reaches the operations**
(`operations_of_same_signatures`). They are computed here once more, from the positions of the
variables and from the names and types at each position, and this second computation never sees a
layout (`stepsBetween`).

That both agree is no matter of storage. An alignment treats its elements as tokens: it classifies
them and puts them into steps, and so sequences that are classified alike, element by element, are
aligned alike, step by step (`best_rel`). The relation between an element and its position is one
such case.
-/

namespace SlotSafe

namespace Alignment

variable {α β : Type}

/-- **Two steps correspond**: they do the same, to elements that are related. -/
structure ChangeRel (R S : α → β → Prop) (c : Change α) (c' : Change β) : Prop where
  action : c.action = c'.action
  original : Option.Rel R c.original c'.original
  updated : Option.Rel S c.updated c'.updated

/-- Two plans correspond: they cost the same, and their steps correspond. -/
structure PlanRel (R S : α → β → Prop) (p : Plan α) (p' : Plan β) : Prop where
  cost : p.cost = p'.cost
  changes : List.Forall₂ (ChangeRel R S) p.changes p'.changes

namespace PlanRel

variable {R S : α → β → Prop} {p : Plan α} {p' : Plan β}

theorem pair (h : PlanRel R S p p') (action : String) {a b : α} {a' b' : β} (ha : R a a')
    (hb : S b b') : PlanRel R S (Plan.pair action a b p) (Plan.pair action a' b' p') :=
  ⟨congrArg (· + _) h.cost, .cons ⟨rfl, .some ha, .some hb⟩ h.changes⟩

theorem insert (h : PlanRel R S p p') {b : α} {b' : β} (hb : S b b') :
    PlanRel R S (Plan.insert b p) (Plan.insert b' p') :=
  ⟨congrArg (· + _) h.cost, .cons ⟨rfl, .none, .some hb⟩ h.changes⟩

theorem append (h : PlanRel R S p p') {b : α} {b' : β} (hb : S b b') :
    PlanRel R S (Plan.append b p) (Plan.append b' p') :=
  ⟨congrArg (· + _) h.cost, .cons ⟨rfl, .none, .some hb⟩ h.changes⟩

theorem delete (h : PlanRel R S p p') {a : α} {a' : β} (ha : R a a') :
    PlanRel R S (Plan.delete a p) (Plan.delete a' p') :=
  ⟨congrArg (· + _) h.cost, .cons ⟨rfl, .some ha, .none⟩ h.changes⟩

/-- A choice looks at the costs alone. -/
theorem choose {q r : Plan α} {q' r' : Plan β} (hp : PlanRel R S p p') (hq : PlanRel R S q q')
    (hr : PlanRel R S r r') : PlanRel R S (Plan.choose p q r) (Plan.choose p' q' r') := by
  unfold Plan.choose
  rw [hp.cost, hq.cost, hr.cost]
  split
  · exact hp
  · split
    · exact hq
    · exact hr

end PlanRel

variable {R S : α → β → Prop} {classify : α → α → String} {classify' : β → β → String}

theorem appendAll_rel {bs : List α} {bs' : List β} (hbs : List.Forall₂ S bs bs') :
    PlanRel R S (appendAll bs) (appendAll bs') := by
  induction hbs with
  | nil => exact ⟨rfl, .nil⟩
  | cons hb _ ih => exact ih.append hb

/-- **Sequences that are classified alike are aligned alike.** -/
theorem best_rel (hclassify : ∀ a a' b b', R a a' → S b b' → classify a b = classify' a' b')
    {as bs : List α} {as' bs' : List β} (has : List.Forall₂ R as as')
    (hbs : List.Forall₂ S bs bs') :
    PlanRel R S (best classify as bs) (best classify' as' bs') := by
  induction has generalizing bs bs' with
  | nil => exact appendAll_rel hbs
  | @cons a a' as as' ha has iha =>
    induction hbs with
    | nil => exact (iha .nil).delete ha
    | @cons b b' bs bs' hb hbs ihb =>
      rw [best_cons, best_cons, hclassify a a' b b' ha hb]
      exact ((iha hbs).pair _ ha hb).choose (ihb.insert hb) ((iha (.cons hb hbs)).delete ha)

/-- Leaving out the additions leaves corresponding steps. -/
theorem withoutAdditions_rel {cs : List (Change α)} {cs' : List (Change β)}
    (h : List.Forall₂ (ChangeRel R S) cs cs') :
    List.Forall₂ (ChangeRel R S) (withoutAdditions cs) (withoutAdditions cs') := by
  induction h with
  | nil => exact .nil
  | @cons c c' cs cs' hc h ih =>
    unfold withoutAdditions at ih ⊢
    rw [List.filter_cons, List.filter_cons, hc.action]
    split
    · exact .cons hc ih
    · exact ih

/-- The step that does at the positions of two sequences what another one does to elements. -/
def stepAt (as bs : List α) (c : Change Nat) : Change α :=
  ⟨c.action, c.original.bind (as[·]?), c.updated.bind (bs[·]?)⟩

/-- Elements stand at their positions. -/
theorem forall₂_range (as : List α) :
    List.Forall₂ (fun a i => as[i]? = some a) as (List.range as.length) := by
  refine List.forall₂_iff_get.mpr ⟨List.length_range.symm, fun i h h' => ?_⟩
  simp

/-- Steps that correspond to steps at positions are these steps. -/
theorem eq_map_stepAt {as bs : List α} {cs : List (Change α)} {steps : List (Change Nat)}
    (h : List.Forall₂ (ChangeRel (fun a i => as[i]? = some a) (fun b j => bs[j]? = some b))
      cs steps) : cs = steps.map (stepAt as bs) := by
  have hside : ∀ {l : List α} {x : Option α} {i : Option Nat},
      Option.Rel (fun a i => l[i]? = some a) x i → x = i.bind (l[·]?) := by
    intro l x i hx
    cases hx with
    | some hi => exact hi.symm
    | none => rfl
  rw [← List.forall₂_eq_eq_eq, List.forall₂_map_right_iff]
  refine h.imp (fun c step hc => ?_)
  obtain ⟨action, original, updated⟩ := c
  obtain ⟨haction, horiginal, hupdated⟩ := hc
  simp only at haction horiginal hupdated
  rw [haction, hside horiginal, hside hupdated]
  rfl

end Alignment

namespace Layout

/-- The signatures of the variables, in the order of the slots: the name and the label of the type
of each. -/
def signatures (l : Layout) : List (Document × Document) :=
  l.items.map fun item => (item.label, l.labelOf item)

/-- Two variables in a layout of another contract, with types under other keys, and with a type
that no variable has. -/
def ofVault : Layout where
  items := [⟨.text "Vault", .text "owner", .text "t_address", .text "Vault.sol:7"⟩,
    ⟨.text "Vault", .text "fee", .text "t_uint256", .text "Vault.sol:9"⟩]
  types := .ofList [(.text "t_bool", .text "bool"), (.text "t_uint256", .text "uint256"),
    (.text "t_address", .text "address")]
  closed := by decide

end Layout

namespace Upgrade

open SlotSafe.Alignment

/-- What a pair is, by the signatures. -/
def classifySignatures (o u : Document × Document) : String :=
  if o.2 == u.2 && o.1 == u.1 then Action.equal
  else if o.2 == u.2 then Action.typechange
  else if o.1 == u.1 then Action.rename
  else Action.replace

/-- What a pair of positions is, by the signatures there. -/
def classifyAt (os us : List (Document × Document)) (i j : Nat) : String :=
  match os[i]?, us[j]? with
  | some o, some u => classifySignatures o u
  | _, _ => Action.replace

/-- The steps between two lists of signatures, each at the positions that it is about. -/
def stepsBetween (os us : List (Document × Document)) : List (Change Nat) :=
  withoutAdditions (align (classifyAt os us) (List.range os.length) (List.range us.length))

theorem classifyAt_ne_append (os us : List (Document × Document)) (i j : Nat) :
    classifyAt os us i j ≠ Action.append := by
  unfold classifyAt
  split
  · unfold classifySignatures
    repeat' split
    all_goals decide
  · decide

/-- Every original position is in one step, in order, and so is every updated one up to the last
that is not added. -/
theorem positions_stepsBetween (os us : List (Document × Document)) :
    (stepsBetween os us).filterMap Change.original = List.range os.length
    ∧ (stepsBetween os us).filterMap Change.updated <+: List.range us.length := by
  obtain ⟨horiginals, added, -, hupdated⟩ := align_accounts_for (classifyAt_ne_append os us)
    (List.range os.length) (List.range us.length)
  exact ⟨horiginals, added, hupdated⟩

/-- **The operations are the steps between the signatures**, at the variables. -/
theorem operations_eq_map_stepsBetween (original updated : Layout) :
    operations original updated
      = (stepsBetween original.signatures updated.signatures).map
          (stepAt original.items updated.items) := by
  have hlength (l : Layout) : l.signatures.length = l.items.length := List.length_map _
  have hclassify : ∀ o i u j, original.items[i]? = some o → updated.items[j]? = some u →
      classify original updated o u = classifyAt original.signatures updated.signatures i j := by
    intro o i u j ho hu
    unfold classifyAt Layout.signatures
    rw [List.getElem?_map, List.getElem?_map, ho, hu]
    rfl
  have hrel := best_rel hclassify (forall₂_range original.items) (forall₂_range updated.items)
  refine eq_map_stepAt ?_
  unfold stepsBetween
  rw [align_eq_best, hlength, hlength]
  show List.Forall₂ _ (withoutAdditions (alignment original updated)) _
  rw [alignment_eq_best]
  exact withoutAdditions_rel hrel.changes

/-- An upgrade is safe when the steps between the signatures are. -/
theorem check_eq_ok_iff_stepsBetween (original updated : Layout) :
    check original updated = .ok () ↔
      ∀ c ∈ stepsBetween original.signatures updated.signatures, Action.isSafe c.action = true := by
  rw [check_eq_ok_iff_unsafeSteps, unsafeSteps, operations_eq_map_stepsBetween,
    List.filter_eq_nil_iff, List.forall_mem_map]
  simp [stepAt]

/-- **The verdict depends on names and written types only.** Of two upgrades between layouts of the
same signatures, the operations are the same actions on the same positions – every original position
once, in order, and every updated one up to the last that is not added – and one upgrade is safe
exactly when the other is. -/
theorem operations_of_same_signatures {original original' updated updated' : Layout}
    (horiginal : original.signatures = original'.signatures)
    (hupdated : updated.signatures = updated'.signatures) :
    ∃ steps : List (Change Nat),
      steps.filterMap Change.original = List.range original.size
      ∧ steps.filterMap Change.updated <+: List.range updated.size
      ∧ operations original updated = steps.map (stepAt original.items updated.items)
      ∧ operations original' updated' = steps.map (stepAt original'.items updated'.items)
      ∧ (check original updated = .ok () ↔ check original' updated' = .ok ()) := by
  have hlength (l : Layout) : l.signatures.length = l.size := List.length_map _
  obtain ⟨horiginals, hupdateds⟩ := positions_stepsBetween original.signatures updated.signatures
  refine ⟨stepsBetween original.signatures updated.signatures, ?_, ?_,
    operations_eq_map_stepsBetween original updated, ?_, ?_⟩
  · rw [horiginals, hlength]
  · rw [hlength] at hupdateds
    exact hupdateds
  · rw [operations_eq_map_stepsBetween, horiginal, hupdated]
  · rw [check_eq_ok_iff_stepsBetween, check_eq_ok_iff_stepsBetween, horiginal, hupdated]

/-- An owner and a fee, in two layouts that share nothing but names and types, are upgraded by the
same steps: the fee takes another name. -/
theorem operations_of_ofVault :
    (Layout.ofFields [("owner", "address"), ("fee", "uint256")]).signatures
      = Layout.ofVault.signatures
    ∧ (operations Layout.ofVault (.ofFields [("owner", "address"), ("rate", "uint256")])).map
        (·.action) = [Action.equal, Action.typechange]
    ∧ ∃ steps : List (Change Nat),
        operations (.ofFields [("owner", "address"), ("fee", "uint256")])
            (.ofFields [("owner", "address"), ("rate", "uint256")])
          = steps.map (stepAt (Layout.ofFields [("owner", "address"), ("fee", "uint256")]).items
              (Layout.ofFields [("owner", "address"), ("rate", "uint256")]).items)
        ∧ operations Layout.ofVault (.ofFields [("owner", "address"), ("rate", "uint256")])
          = steps.map (stepAt Layout.ofVault.items
              (Layout.ofFields [("owner", "address"), ("rate", "uint256")]).items) := by
  have hsame : (Layout.ofFields [("owner", "address"), ("fee", "uint256")]).signatures
      = Layout.ofVault.signatures := rfl
  obtain ⟨steps, -, -, hops, hops', -⟩ := operations_of_same_signatures hsame
    (rfl : (Layout.ofFields [("owner", "address"), ("rate", "uint256")]).signatures = _)
  exact ⟨hsame, by decide, steps, hops, hops'⟩

end Upgrade

end SlotSafe
