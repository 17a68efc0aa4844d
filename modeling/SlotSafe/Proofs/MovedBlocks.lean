import Mathlib.Data.List.Rotate
import SlotSafe.Proofs.Fields

/-!
# Moved blocks are found out

Some reorderings pass for renamings. The one that a maintainer is most likely to make does not: to
cut out a block of variables in a row and put it in at another place, which is to exchange two
neighbouring blocks. **The check rejects it however long the blocks are and whatever is added at the
end**, even where all types are the same (`check_of_blocks_exchanged`).

The reason is a comparison of costs. When all fields are distinct, no variable of the two blocks
stays where it was (`ne_of_mem_zip_exchanged`), so that in place each of them costs 3. But one can
follow the longer block: the shorter one is then deleted at one end and inserted at the other, which
costs 4 for each variable of the shorter block, and that is 2 for each of both at most.
-/

namespace SlotSafe

namespace Alignment

variable {α : Type} [BEq α] [LawfulBEq α]

namespace Edit

omit [BEq α] [LawfulBEq α] in
/-- Only insertions are left where nothing was. -/
theorem cost_inPlace_nil_left (free : α → α → Bool) (bs : List α) :
    (inPlace [] bs).cost free = 2 * bs.length := by
  rw [inPlace, cost_insertAll]

omit [BEq α] [LawfulBEq α] in
/-- Only deletions are left where nothing is to be. -/
theorem cost_inPlace_nil_right (free : α → α → Bool) (as : List α) :
    (inPlace as []).cost free = 2 * as.length := by
  simp [cost_inPlace]

/-- What two sequences have in common at the start of both costs nothing in place. -/
theorem cost_inPlace_append_left (front as bs : List α) :
    (inPlace (front ++ as) (front ++ bs)).cost (fun a b => a == b)
      = (inPlace as bs).cost (fun a b => a == b) := by
  induction front with
  | nil => rfl
  | cons a front ih =>
    rw [List.cons_append, List.cons_append, inPlace, cost, beq_self_eq_true, if_pos rfl,
      Nat.zero_add, ih]

theorem cost_inPlace_self (as : List α) : (inPlace as as).cost (fun a b => a == b) = 0 := by
  have h := cost_inPlace_append_left as [] []
  rwa [List.append_nil] at h

end Edit

omit [BEq α] [LawfulBEq α] in
/-- **Less than a whole turn leaves nothing where it was**, if all elements are distinct. -/
theorem getElem_ne_getElem_rotate {as : List α} (h : as.Nodup) {k : Nat} (hk : 0 < k)
    (hk' : k < as.length) {i : Nat} (hi : i < as.length) (hi' : i < (as.rotate k).length) :
    as[i] ≠ (as.rotate k)[i] := by
  rw [List.getElem_rotate, Ne, h.getElem_inj_iff]
  by_cases hlast : i + k < as.length
  · rw [Nat.mod_eq_of_lt hlast]
    omega
  · rw [Nat.mod_eq_sub_mod (Nat.le_of_not_lt hlast), Nat.mod_eq_of_lt (by omega)]
    omega

omit [BEq α] [LawfulBEq α] in
/-- No element of two exchanged blocks stays where it was: the blocks are turned by the length of
the first. -/
theorem ne_of_mem_zip_exchanged {first second : List α} (h : (first ++ second).Nodup)
    (hfirst : first ≠ []) (hsecond : second ≠ []) :
    ∀ p ∈ (first ++ second).zip (second ++ first), p.1 ≠ p.2 := by
  rw [show second ++ first = (first ++ second).rotate first.length from
    (List.rotate_append_length_eq first second).symm]
  intro p hp
  obtain ⟨i, hi, rfl⟩ := List.mem_iff_getElem.mp hp
  rw [List.length_zip] at hi
  rw [List.getElem_zip]
  refine getElem_ne_getElem_rotate h (List.length_pos_iff.mpr hfirst) ?_ _ _
  have hrest := List.length_pos_iff.mpr hsecond
  rw [List.length_append]
  omega

/-- Exchanged blocks cost 3 for each element in place. -/
theorem cost_inPlace_exchanged {first second : List α} (h : (first ++ second).Nodup)
    (hfirst : first ≠ []) (hsecond : second ≠ []) :
    (Edit.inPlace (first ++ second) (second ++ first)).cost (fun a b => a == b)
      = 3 * (first.length + second.length) := by
  have hcount : ((first ++ second).zip (second ++ first)).countP (fun p => !(p.1 == p.2))
      = first.length + second.length := by
    rw [List.countP_eq_length.mpr (fun p hp => ?_), List.length_zip, List.length_append,
      List.length_append, Nat.add_comm second.length, Nat.min_self]
    rw [beq_false_of_ne (ne_of_mem_zip_exchanged h hfirst hsecond p hp)]
    rfl
  rw [Edit.cost_inPlace, hcount, List.length_append, List.length_append]
  omega

/-- Exchanged blocks cost 4 for each element of the shorter one when the longer one is followed. -/
theorem exists_edit_of_exchanged (first second : List α) :
    ∃ e : Edit (first ++ second) (second ++ first),
      e.cost (fun a b => a == b) = 4 * min first.length second.length := by
  obtain hle | hle := Nat.le_total first.length second.length
  · refine ⟨(Edit.inPlace first []).append (Edit.inPlace second (second ++ first)), ?_⟩
    have hkept := Edit.cost_inPlace_append_left second [] first
    rw [List.append_nil] at hkept
    rw [Edit.cost_append, hkept, Edit.cost_inPlace_nil_right, Edit.cost_inPlace_nil_left,
      Nat.min_eq_left hle]
    omega
  · refine ⟨(Edit.inPlace [] second).append (Edit.inPlace (first ++ second) first), ?_⟩
    have hkept := Edit.cost_inPlace_append_left first second []
    rw [List.append_nil] at hkept
    rw [Edit.cost_append, hkept, Edit.cost_inPlace_nil_left, Edit.cost_inPlace_nil_right,
      Nat.min_eq_right hle]
    omega

/-- **Something is cheaper than the edit in place** where two neighbouring blocks of distinct
elements are exchanged, whatever stands around them and is added. -/
theorem exists_cost_lt_inPlace_of_exchanged {front first second back : List α} (added : List α)
    (h : (front ++ (first ++ second ++ back)).Nodup) (hfirst : first ≠ []) (hsecond : second ≠ []) :
    ∃ e : Edit (front ++ (first ++ second ++ back)) (front ++ (second ++ first ++ (back ++ added))),
      e.cost (fun a b => a == b)
        < (Edit.inPlace (front ++ (first ++ second ++ back))
            (front ++ (second ++ first ++ (back ++ added)))).cost (fun a b => a == b) := by
  obtain ⟨e, he⟩ := exists_edit_of_exchanged first second
  refine ⟨(Edit.inPlace front front).append (e.append (Edit.inPlace back (back ++ added))), ?_⟩
  have hblocks : (first ++ second).Nodup := h.of_append_right.of_append_left
  have hlen : (first ++ second).length = (second ++ first).length := by
    rw [List.length_append, List.length_append, Nat.add_comm]
  rw [Edit.cost_append, Edit.cost_append, Edit.cost_inPlace_self, he,
    Edit.cost_inPlace_append_left, Edit.cost_inPlace_append _ hlen,
    cost_inPlace_exchanged hblocks hfirst hsecond]
  have hturn := List.length_pos_iff.mpr hfirst
  omega

end Alignment

namespace Upgrade

open SlotSafe.Alignment

/-- **Two neighbouring blocks of variables have changed places**, and variables of any kind may be
added at the end. All fields of the original layout are distinct, and both layouts hold texts. -/
structure BlocksExchanged (original updated : Layout)
    (front first second back added : List (String × String)) : Prop where
  original_fields : original.fields = front ++ first ++ second ++ back
  updated_fields : updated.fields = front ++ second ++ first ++ back ++ added
  distinct : original.fields.Nodup
  first_ne_nil : first ≠ []
  second_ne_nil : second ≠ []
  original_texts : original.HasTexts
  updated_texts : updated.HasTexts

/-- **An upgrade that moves a block of variables is never safe.** -/
theorem check_of_blocks_exchanged {original updated : Layout}
    {front first second back added : List (String × String)}
    (h : BlocksExchanged original updated front first second back added) :
    ∃ es, es ≠ [] ∧ check original updated = .error (.incompatible es) := by
  have horiginal : original.fields = front ++ (first ++ second ++ back) := by
    rw [h.original_fields, List.append_assoc, List.append_assoc, List.append_assoc]
  have hupdated : updated.fields = front ++ (second ++ first ++ (back ++ added)) := by
    rw [h.updated_fields, List.append_assoc, List.append_assoc, List.append_assoc,
      List.append_assoc]
  have hdistinct := h.distinct
  rw [horiginal] at hdistinct
  rw [← check_ne_ok_iff]
  refine check_ne_ok_of_cost_lt h.original_texts h.updated_texts ?_
  rw [horiginal, hupdated]
  exact exists_cost_lt_inPlace_of_exchanged added hdistinct h.first_ne_nil h.second_ne_nil

/-- Of five variables of one type the second is moved behind the fourth, and a name that is already
taken is added. -/
theorem check_of_fee_moved :
    BlocksExchanged
      (.ofFields [("owner", "uint256"), ("fee", "uint256"), ("cap", "uint256"),
        ("rate", "uint256"), ("end", "uint256")])
      (.ofFields [("owner", "uint256"), ("cap", "uint256"), ("rate", "uint256"),
        ("fee", "uint256"), ("end", "uint256"), ("fee", "uint256")])
      [("owner", "uint256")] [("fee", "uint256")] [("cap", "uint256"), ("rate", "uint256")]
      [("end", "uint256")] [("fee", "uint256")]
    ∧ ∃ es, es ≠ [] ∧
      check
        (.ofFields [("owner", "uint256"), ("fee", "uint256"), ("cap", "uint256"),
          ("rate", "uint256"), ("end", "uint256")])
        (.ofFields [("owner", "uint256"), ("cap", "uint256"), ("rate", "uint256"),
          ("fee", "uint256"), ("end", "uint256"), ("fee", "uint256")])
          = .error (.incompatible es) := by
  have h : BlocksExchanged
      (.ofFields [("owner", "uint256"), ("fee", "uint256"), ("cap", "uint256"),
        ("rate", "uint256"), ("end", "uint256")])
      (.ofFields [("owner", "uint256"), ("cap", "uint256"), ("rate", "uint256"),
        ("fee", "uint256"), ("end", "uint256"), ("fee", "uint256")])
      [("owner", "uint256")] [("fee", "uint256")] [("cap", "uint256"), ("rate", "uint256")]
      [("end", "uint256")] [("fee", "uint256")] :=
    ⟨by decide, by decide, by decide, by decide, by decide, by decide, by decide⟩
  exact ⟨h, check_of_blocks_exchanged h⟩

end Upgrade

end SlotSafe
