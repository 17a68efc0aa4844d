import Mathlib.Data.List.Nodup
import SlotSafe.Proofs.Fields

/-!
# Which reorderings are found out

Reordering variables corrupts what is stored under them, and where a type changes at some position
the check says so. Where all types stay, only the cost of the alignments can tell. Following
variables that keep their order costs nothing for each of them, but it costs a step whenever the
distance they moved by changes on the way. So what decides is a **kept** sequence, of names that
occur in the same order before and after, and how far its shifts travel: from no shift at the start,
through the shift of each kept name, to no shift at the end.

**A reordering that keeps the types is found out exactly when some kept sequence travels less than
6 for each name that it has more than stayed in place** (`check_reordering_iff`). Of three variables
of one type, the first two cannot change places unnoticed (`check_neighbours_exchanged`): two names
are kept, and travel one position there and back. But the outer two can (`check_ends_exchanged`):
whatever is kept has one name, as many as stay in place.
-/

namespace SlotSafe

namespace Alignment

variable {α : Type}

/-- How far shifts travel: from the shift that one is at, through all shifts in a row, to the one
where one stops. -/
def travel (stop : Int) : (here : Int) → List Int → Nat
  | here, [] => (stop - here).natAbs
  | here, next :: rest => (next - here).natAbs + travel stop next rest

/-- Starting elsewhere is further by no more than the way there. -/
theorem travel_le (stop here there : Int) (shifts : List Int) :
    travel stop here shifts ≤ (there - here).natAbs + travel stop there shifts := by
  cases shifts with
  | nil => rw [travel, travel]; omega
  | cons next rest => rw [travel, travel]; omega

variable [DecidableEq α]

/-- By how many positions an element has moved towards the end. -/
def shift (as bs : List α) (a : α) : Int := (bs.idxOf a : Int) - as.idxOf a

/-- The shifts of all common elements of two sequences whose first positions are shifted already. -/
def Shifts (σ : α → Int) (first : Int) (as bs : List α) : Prop :=
  ∀ a ∈ as, a ∈ bs → σ a = first + shift as bs a

/-- Passing elements changes the shift of what follows by their number. -/
theorem Shifts.pass {σ : α → Int} {first : Int} (ls rs : List α) {as bs : List α}
    (h : Shifts σ first (ls ++ as) (rs ++ bs)) (ha : (ls ++ as).Nodup) (hb : (rs ++ bs).Nodup) :
    Shifts σ (first + rs.length - ls.length) as bs := by
  intro a hmem hmem'
  have hl : a ∉ ls := fun hls => List.disjoint_of_nodup_append ha hls hmem
  have hr : a ∉ rs := fun hrs => List.disjoint_of_nodup_append hb hrs hmem'
  rw [h a (List.mem_append_right _ hmem) (List.mem_append_right _ hmem'), shift, shift,
    List.idxOf_append_of_notMem hl, List.idxOf_append_of_notMem hr]
  push_cast
  omega

/-- An element at the front of both sequences has their first shift. -/
theorem Shifts.head {σ : α → Int} {first : Int} {a : α} {as bs : List α}
    (h : Shifts σ first (a :: as) (a :: bs)) : σ a = first := by
  rw [h a List.mem_cons_self List.mem_cons_self, shift, List.idxOf_cons_self, List.idxOf_cons_self,
    Int.sub_self, Int.add_zero]

/-- The elements that an edit keeps, and how far they travel. Each pair that is free is kept; each
step without a partner moves the shift by one. -/
theorem exists_kept_of_edit {σ : α → Int} {as bs : List α} (e : Edit as bs) (first : Int)
    (hσ : Shifts σ first as bs) (ha : as.Nodup) (hb : bs.Nodup) :
    ∃ kept : List α, kept.Sublist as ∧ kept.Sublist bs ∧
      3 * (as.length + bs.length)
          + travel (first + bs.length - as.length) first (kept.map σ)
        ≤ 2 * e.cost (fun a b => a == b) + 6 * kept.length := by
  induction e generalizing first with
  | done => exact ⟨[], List.Sublist.slnil, List.Sublist.slnil, by simp [travel]⟩
  | @pair a b as bs e ih =>
    obtain ⟨kept, hsub, hsub', hcost⟩ := ih (first + 1 - 1)
      (hσ.pass [a] [b] ha hb) ha.of_cons hb.of_cons
    rw [Int.add_sub_cancel] at hcost
    have hstop : first + ((b :: bs).length : Int) - ((a :: as).length : Int)
        = first + bs.length - as.length := by
      push_cast [List.length_cons]
      omega
    rw [hstop, Edit.cost, List.length_cons, List.length_cons]
    by_cases hab : a = b
    · -- kept at the shift where one is, so nothing is travelled
      subst hab
      refine ⟨a :: kept, hsub.cons_cons a, hsub'.cons_cons a, ?_⟩
      rw [List.map_cons, travel, hσ.head, List.length_cons, beq_self_eq_true, if_pos rfl]
      omega
    · refine ⟨kept, hsub.cons a, hsub'.cons b, ?_⟩
      rw [beq_false_of_ne hab, if_neg Bool.false_ne_true]
      omega
  | @insert b as bs e ih =>
    obtain ⟨kept, hsub, hsub', hcost⟩ := ih (first + 1 - 0)
      (hσ.pass [] [b] ha hb) ha hb.of_cons
    refine ⟨kept, hsub, hsub'.cons b, ?_⟩
    -- the insertion pays for one step of the way
    have hstep := travel_le (first + (b :: bs).length - as.length) first (first + 1) (kept.map σ)
    have hstop : first + 1 - 0 + (bs.length : Int) - as.length
        = first + ((b :: bs).length : Int) - as.length := by
      push_cast [List.length_cons]
      omega
    rw [hstop, Int.sub_zero] at hcost
    rw [Edit.cost]
    rw [List.length_cons] at *
    omega
  | @delete a as bs e ih =>
    obtain ⟨kept, hsub, hsub', hcost⟩ := ih (first + 0 - 1)
      (hσ.pass [a] [] ha hb) ha.of_cons hb
    refine ⟨kept, hsub.cons a, hsub', ?_⟩
    have hstep := travel_le (first + bs.length - (a :: as).length) first (first - 1) (kept.map σ)
    have hstop : first + 0 - 1 + (bs.length : Int) - as.length
        = first + bs.length - ((a :: as).length : Int) := by
      push_cast [List.length_cons]
      omega
    rw [hstop, Int.add_zero] at hcost
    rw [Edit.cost]
    rw [List.length_cons] at *
    omega

omit [DecidableEq α] in
/-- What comes after the first kept element holds the others. -/
theorem exists_split_of_cons_sublist {a : α} {kept as : List α} (h : (a :: kept).Sublist as) :
    ∃ ls rs : List α, as = ls ++ a :: rs ∧ kept.Sublist rs := by
  obtain ⟨as₁, as₂, rfl, hmem, hrest⟩ := List.cons_sublist_iff.mp h
  obtain ⟨ls, rs, rfl⟩ := List.append_of_mem hmem
  refine ⟨ls, rs ++ as₂, ?_, hrest.trans (List.sublist_append_right _ _)⟩
  rw [List.append_assoc, List.cons_append]

/-- An edit that keeps given elements, and costs no more than they travel: between two of them it
goes in place. -/
theorem exists_edit_of_kept {σ : α → Int} {kept as bs : List α} (first : Int)
    (hσ : Shifts σ first as bs) (ha : as.Nodup) (hb : bs.Nodup)
    (hsub : kept.Sublist as) (hsub' : kept.Sublist bs) :
    ∃ e : Edit as bs, 2 * e.cost (fun a b => a == b) + 6 * kept.length
      ≤ 3 * (as.length + bs.length)
        + travel (first + bs.length - as.length) first (kept.map σ) := by
  induction kept generalizing as bs first with
  | nil =>
    refine ⟨Edit.inPlace as bs, ?_⟩
    have hcost := Edit.cost_inPlace_le (fun a b => a == b) as bs
    rw [List.map_nil, travel, List.length_nil]
    omega
  | cons a kept ih =>
    obtain ⟨ls, as, rfl, hrest⟩ := exists_split_of_cons_sublist hsub
    obtain ⟨rs, bs, rfl, hrest'⟩ := exists_split_of_cons_sublist hsub'
    have hmoved := hσ.pass ls rs ha hb
    have hla := List.Nodup.of_append_right ha
    have hlb := List.Nodup.of_append_right hb
    obtain ⟨e, he⟩ := ih (first + rs.length - ls.length + 1 - 1)
      (hmoved.pass [a] [a] hla hlb) hla.of_cons hlb.of_cons hrest hrest'
    -- what stands before the kept element is longer on one side by the way to its shift
    refine ⟨(Edit.inPlace ls rs).append (.pair a a e), ?_⟩
    have hgap := Edit.cost_inPlace_le (fun a b => a == b) ls rs
    rw [Int.add_sub_cancel] at he
    rw [Edit.cost_append, Edit.cost, beq_self_eq_true, if_pos rfl, List.map_cons, travel,
      hmoved.head]
    have hstop : first + ((rs ++ a :: bs).length : Int) - ((ls ++ a :: as).length : Int)
        = first + rs.length - ls.length + bs.length - as.length := by
      push_cast [List.length_append, List.length_cons]
      omega
    rw [hstop, List.length_append, List.length_append, List.length_cons, List.length_cons,
      List.length_cons]
    omega

/-- The number of positions at which two sequences agree. -/
def stayed (as bs : List α) : Nat := (as.zip bs).countP (fun p => p.1 == p.2)

/-- Two sequences of one length cost in place 3 for each position at which they differ. -/
theorem cost_inPlace_add_stayed {as bs : List α} (hlen : as.length = bs.length) :
    (Edit.inPlace as bs).cost (fun a b => a == b) + 3 * stayed as bs = 3 * as.length := by
  have hcount := List.length_eq_countP_add_countP (fun p : α × α => p.1 == p.2) (l := as.zip bs)
  have hnot : (as.zip bs).countP (fun p => !(p.1 == p.2))
      = (as.zip bs).countP (fun p => decide ¬((p.1 == p.2) = true)) :=
    List.countP_congr (fun p _ => by simp)
  rw [List.length_zip] at hcount
  rw [Edit.cost_inPlace, stayed, hnot]
  omega

/-- **When something is cheaper than the edit in place**: some kept sequence travels less than 6 for
each element that it has more than stayed. -/
theorem exists_cost_lt_inPlace_iff {as bs : List α} (ha : as.Nodup) (hb : bs.Nodup)
    (hlen : as.length = bs.length) :
    (∃ e : Edit as bs, e.cost (fun a b => a == b)
        < (Edit.inPlace as bs).cost (fun a b => a == b))
      ↔ ∃ kept : List α, kept.Sublist as ∧ kept.Sublist bs ∧
        travel 0 0 (kept.map (shift as bs)) + 6 * stayed as bs < 6 * kept.length := by
  have hσ : Shifts (shift as bs) 0 as bs := fun a _ _ => (Int.zero_add _).symm
  have hstop : (0 : Int) + bs.length - as.length = 0 := by omega
  have hplace := cost_inPlace_add_stayed hlen
  constructor
  · rintro ⟨e, he⟩
    obtain ⟨kept, hsub, hsub', hcost⟩ := exists_kept_of_edit e 0 hσ ha hb
    rw [hstop] at hcost
    exact ⟨kept, hsub, hsub', by omega⟩
  · rintro ⟨kept, hsub, hsub', hkept⟩
    obtain ⟨e, he⟩ := exists_edit_of_kept 0 hσ ha hb hsub hsub'
    rw [hstop] at he
    exact ⟨e, by omega⟩

end Alignment

namespace Upgrade

open SlotSafe.Alignment

/-- **The updated layout holds the same variables in some order**, with the same types. Their names
are told apart by their texts. -/
structure Reordering (original updated : Layout) : Prop where
  items : updated.items.Perm original.items
  types : updated.types = original.types
  distinct : (original.items.map Item.label).Nodup
  texts : ∀ item ∈ original.items, item.label.isText ∧ (original.labelOf item).isText

namespace Reordering

variable {original updated : Layout}

/-- A variable is free to be paired with itself alone. -/
theorem sameField_eq (h : Reordering original updated) {o u : Item} (ho : o ∈ original.items)
    (hu : u ∈ updated.items) :
    sameField original updated o u = (o.name == u.name) := by
  have hu' := h.items.mem_iff.mp hu
  obtain ⟨s, hs⟩ := eq_text_of_isText (h.texts o ho).1
  obtain ⟨t, ht⟩ := eq_text_of_isText (h.texts u hu').1
  have hname : (o.name == u.name) = (s == t) := by rw [Item.name, Item.name, hs, ht]; rfl
  rw [sameField, hname, hs, ht, Document.text_beq_text]
  by_cases hst : s = t
  · have hou : o = u := List.inj_on_of_nodup_map h.distinct ho hu' (by rw [hs, ht, hst])
    obtain ⟨l, hl⟩ := eq_text_of_isText (h.texts o ho).2
    have htype : updated.labelOf u = original.labelOf o := by
      rw [← hou, Layout.labelOf, Layout.labelOf, h.types]
    rw [sameType, htype, hl, Document.text_beq_text, beq_self_eq_true, Bool.and_true]
  · rw [beq_false_of_ne hst, Bool.false_and]

theorem nodup_names (h : Reordering original updated) : original.names.Nodup := by
  refine List.Nodup.map_on (fun o ho u hu hname => ?_) h.distinct.of_map
  obtain ⟨s, hs⟩ := eq_text_of_isText (h.texts o ho).1
  obtain ⟨t, ht⟩ := eq_text_of_isText (h.texts u hu).1
  rw [Item.name, Item.name, hs, ht] at hname
  exact List.inj_on_of_nodup_map h.distinct ho hu (by
    rw [hs, ht]
    exact congrArg Document.text hname)

theorem names_perm (h : Reordering original updated) : updated.names.Perm original.names :=
  h.items.map _

/-- **A reordering is cheapest in place exactly when no kept sequence of names betrays it.** -/
theorem exists_cost_lt_iff (h : Reordering original updated) :
    (∃ e : Edit original.items updated.items, e.cost (sameField original updated)
        < (Edit.inPlace original.items updated.items).cost (sameField original updated))
      ↔ ∃ kept : List String, kept.Sublist original.names ∧ kept.Sublist updated.names ∧
        travel 0 0 (kept.map (shift original.names updated.names))
          + 6 * stayed original.names updated.names < 6 * kept.length := by
  have hfree : ∀ o ∈ original.items, ∀ u ∈ updated.items,
      sameField original updated o u = (o.name == u.name) :=
    fun o ho u hu => h.sameField_eq ho hu
  have hplace : (Edit.inPlace original.items updated.items).cost (sameField original updated)
      = (Edit.inPlace original.names updated.names).cost (fun s t => s == t) :=
    (Edit.cost_inPlace_map hfree).symm
  rw [hplace, ← exists_cost_lt_inPlace_iff h.nodup_names (h.names_perm.nodup_iff.mpr h.nodup_names)
    h.names_perm.length_eq.symm]
  constructor
  · rintro ⟨e, he⟩
    obtain ⟨e', he'⟩ := e.exists_map_cost_eq (f := Item.name) hfree
    exact ⟨e', he'.trans_lt he⟩
  · rintro ⟨e, he⟩
    obtain ⟨e', he'⟩ := e.exists_cost_eq_of_map rfl rfl hfree
    exact ⟨e', he'.trans_lt he⟩

end Reordering

/-- **Which reorderings are found out.** Variables in another order are rejected exactly when the
type changes at some position, or some kept sequence of names travels less than 6 for each name that
it has more than stayed in place. -/
theorem check_reordering_iff {original updated : Layout} (h : Reordering original updated) :
    (∃ es, es ≠ [] ∧ check original updated = .error (.incompatible es))
      ↔ (∃ (i : Nat) (_ : i < original.items.length) (_ : i < updated.items.length),
          (original.labelOf original.items[i] == updated.labelOf updated.items[i]) = false)
        ∨ ∃ kept : List String, kept.Sublist original.names ∧ kept.Sublist updated.names ∧
          travel 0 0 (kept.map (shift original.names updated.names))
            + 6 * stayed original.names updated.names < 6 * kept.length := by
  have hlen : original.items.length ≤ updated.items.length := h.items.length_eq.ge
  rw [← check_ne_ok_iff, ← h.exists_cost_lt_iff, ne_eq, check_eq_ok_iff_inPlace, forall_mem_zip_iff
    (P := fun o u => sameType original updated o u = true), le_cost_best_iff, isFree_classify]
  constructor
  · intro hnot
    by_contra hnone
    push Not at hnone
    exact hnot ⟨hlen, fun i hi hi' => eq_true_of_ne_false (hnone.1 i hi hi'), hnone.2⟩
  · rintro (⟨i, hi, hi', htype⟩ | ⟨e, he⟩) ⟨-, htypes, hcost⟩
    · exact absurd (htypes i hi hi') (ne_true_of_eq_false htype)
    · exact absurd (hcost e) (Nat.not_le_of_lt he)

/-- Of three variables of one type the first two change places: the outer two of the old order are
kept, which travel one position there and back, while one name stays. -/
theorem check_neighbours_exchanged :
    Reordering (.ofFields [("a", "uint256"), ("b", "uint256"), ("c", "uint256")])
      (.ofFields [("b", "uint256"), ("a", "uint256"), ("c", "uint256")])
    ∧ ∃ es, es ≠ [] ∧
      check (.ofFields [("a", "uint256"), ("b", "uint256"), ("c", "uint256")])
        (.ofFields [("b", "uint256"), ("a", "uint256"), ("c", "uint256")])
          = .error (.incompatible es) := by
  have h : Reordering (.ofFields [("a", "uint256"), ("b", "uint256"), ("c", "uint256")])
      (.ofFields [("b", "uint256"), ("a", "uint256"), ("c", "uint256")]) :=
    ⟨List.Perm.swap _ _ _, rfl, by simp [Layout.ofFields], by decide⟩
  exact ⟨h, (check_reordering_iff h).mpr
    (Or.inr ⟨["a", "c"], by decide, by decide, by decide⟩)⟩

/-- **A reordering that is not found out.** Of three variables of one type the outer two change
places, and the upgrade passes for two new names. -/
theorem check_ends_exchanged :
    Reordering (.ofFields [("a", "uint256"), ("b", "uint256"), ("c", "uint256")])
      (.ofFields [("c", "uint256"), ("b", "uint256"), ("a", "uint256")])
    ∧ Layout.names (.ofFields [("c", "uint256"), ("b", "uint256"), ("a", "uint256")])
      ≠ Layout.names (.ofFields [("a", "uint256"), ("b", "uint256"), ("c", "uint256")])
    ∧ check (.ofFields [("a", "uint256"), ("b", "uint256"), ("c", "uint256")])
        (.ofFields [("c", "uint256"), ("b", "uint256"), ("a", "uint256")]) = .ok () :=
  ⟨⟨List.reverse_perm
      (Layout.ofFields [("a", "uint256"), ("b", "uint256"), ("c", "uint256")]).items,
    rfl, by simp [Layout.ofFields], by decide⟩, by decide, rfl⟩

end Upgrade

end SlotSafe
