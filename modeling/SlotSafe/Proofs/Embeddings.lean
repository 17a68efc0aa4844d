import Mathlib.Data.List.Forall2

/-!
# The leftmost embedding of a sequence

A sequence is embedded in another one when each of its elements has a partner there, in the same
order. Of all embeddings the **leftmost** one gives every element the earliest partner that it has
in any (`IsLeftmost`). It is found without looking ahead: each element takes the first of the
remaining elements that will do (`leftmost`), and **that is never too early**, since whatever comes
after can only profit from what is left (`Embeds.isLeftmost`). Nothing is asked of the relation
between elements and partners for that.
-/

namespace SlotSafe

variable {α β : Type}

/-- Elements that are passed over, and the partner after them. -/
structure Stretch (β : Type) where
  passed : List β
  partner : β
  deriving DecidableEq, Repr

/-- All elements of a stretch. -/
def Stretch.all (s : Stretch β) : List β := s.passed ++ [s.partner]

/-- What stretches leave without a partner: the elements that they pass over, and those behind the
last one. -/
def leftOut (stretches : List (Stretch β)) (bs : List β) : List β :=
  stretches.flatMap Stretch.passed ++ bs.drop (stretches.flatMap Stretch.all).length

/-- Whether a sequence is embedded in another one. -/
abbrev Embeds (same : α → β → Bool) : List α → List β → Prop :=
  List.SublistForall₂ fun a b => same a b = true

/-- **Stretches are the leftmost embedding** of a sequence: they lie at the start of the other one,
each ends in the partner of an element, and the first so many elements are not embedded in any
shorter start. -/
structure IsLeftmost (same : α → β → Bool) (as : List α) (bs : List β)
    (stretches : List (Stretch β)) : Prop where
  fits : stretches.flatMap Stretch.all <+: bs
  partners : List.Forall₂ (fun a s => same a s.partner = true) as stretches
  earliest : ∀ k n : Nat, Embeds same (as.take k) (bs.take n) →
    ((stretches.take k).flatMap Stretch.all).length ≤ n

/-- The stretches of the sequence in which each element takes the first partner that is left. -/
def leftmost (same : α → β → Bool) : List α → List β → List (Stretch β)
  | [], _ => []
  | a :: as, bs =>
    match bs.dropWhile fun b => !same a b with
    | [] => []
    | b :: rest => ⟨bs.takeWhile fun b => !same a b, b⟩ :: leftmost same as rest

variable {same : α → β → Bool}

/-! ## Embeddings -/

theorem Embeds.length_le {as : List α} {bs : List β} (h : Embeds same as bs) :
    as.length ≤ bs.length := by
  induction h with
  | nil => exact Nat.zero_le _
  | cons hab h ih => exact Nat.succ_le_succ ih
  | cons_right h ih => exact Nat.le_succ_of_le ih

theorem Embeds.of_cons {a : α} {as : List α} {bs : List β} (h : Embeds same (a :: as) bs) :
    Embeds same as bs := by
  induction bs with
  | nil => cases h
  | cons b bs ih =>
    cases h with
    | cons hab h => exact .cons_right h
    | cons_right h => exact .cons_right (ih h)

/-- What is embedded without its first element is embedded behind the first partner for it. -/
theorem Embeds.tail {a : α} {as : List α} {b : β} {bs : List β}
    (h : Embeds same (a :: as) (b :: bs)) : Embeds same as bs := by
  cases h with
  | cons hab h => exact h
  | cons_right h => exact Embeds.of_cons h

theorem Embeds.skip {a : α} {as : List α} {b : β} {bs : List β}
    (h : Embeds same (a :: as) (b :: bs)) (hab : same a b = false) : Embeds same (a :: as) bs := by
  cases h with
  | cons hab' h => exact absurd hab' (ne_true_of_eq_false hab)
  | cons_right h => exact h

/-! ## Taking the first partner -/

theorem leftmost_cons_of_same {a : α} {b : β} (h : same a b = true) (as : List α) (bs : List β) :
    leftmost same (a :: as) (b :: bs) = ⟨[], b⟩ :: leftmost same as bs := by
  simp [leftmost, h]

theorem leftmost_cons_of_not_same {a : α} {b : β} (h : same a b = false) (as : List α)
    (bs : List β) :
    leftmost same (a :: as) (b :: bs)
      = (leftmost same (a :: as) bs).modifyHead fun s => ⟨b :: s.passed, s.partner⟩ := by
  simp only [leftmost, List.dropWhile_cons, List.takeWhile_cons, h, Bool.not_false, if_true]
  cases bs.dropWhile fun b => !same a b <;> rfl

theorem take_leftmost (k : Nat) (as : List α) (bs : List β) :
    (leftmost same as bs).take k = leftmost same (as.take k) bs := by
  induction as generalizing k bs with
  | nil => simp [leftmost]
  | cons a as ih =>
    cases k with
    | zero => simp [leftmost]
    | succ k =>
      rw [List.take_succ_cons, leftmost, leftmost]
      cases bs.dropWhile fun b => !same a b with
      | nil => rfl
      | cons b rest => exact congrArg _ (ih k rest)

/-- The stretches lie at the start of the other sequence. -/
theorem leftmost_fits (as : List α) (bs : List β) :
    (leftmost same as bs).flatMap Stretch.all <+: bs := by
  induction as generalizing bs with
  | nil => exact List.nil_prefix
  | cons a as ih =>
    have hsplit := List.takeWhile_append_dropWhile (p := fun b => !same a b) (l := bs)
    rw [leftmost]
    cases hdrop : bs.dropWhile fun b => !same a b with
    | nil => exact List.nil_prefix
    | cons b rest =>
      rw [hdrop] at hsplit
      rw [List.flatMap_cons, Stretch.all, List.append_assoc, List.singleton_append]
      conv_rhs => rw [← hsplit]
      exact (List.prefix_append_right_inj _).mpr ((List.prefix_cons_inj b).mpr (ih rest))

/-- Each element of an embedded sequence finds a partner. -/
theorem Embeds.partners {as : List α} {bs : List β} (h : Embeds same as bs) :
    List.Forall₂ (fun a s => same a s.partner = true) as (leftmost same as bs) := by
  induction bs generalizing as with
  | nil =>
    obtain rfl : as = [] := List.eq_nil_of_length_eq_zero (Nat.le_zero.mp h.length_le)
    exact .nil
  | cons b bs ih =>
    cases as with
    | nil => exact .nil
    | cons a as =>
      cases hab : same a b with
      | true =>
        rw [leftmost_cons_of_same hab]
        exact .cons hab (ih h.tail)
      | false =>
        rw [leftmost_cons_of_not_same hab]
        obtain ⟨s, rest, hs, hrest, heq⟩ := List.forall₂_cons_left_iff.mp (ih (h.skip hab))
        rw [heq]
        exact .cons hs hrest

/-- **The first partners reach no further than any embedding.** -/
theorem Embeds.length_all_le {as : List α} {bs : List β} {n : Nat}
    (h : Embeds same as (bs.take n)) :
    ((leftmost same as bs).flatMap Stretch.all).length ≤ n := by
  -- element by element of the other sequence, since a stretch grows by what is passed over
  induction bs generalizing as n with
  | nil =>
    rw [List.take_nil] at h
    obtain rfl : as = [] := List.eq_nil_of_length_eq_zero (Nat.le_zero.mp h.length_le)
    exact Nat.zero_le _
  | cons b bs ih =>
    cases as with
    | nil => exact Nat.zero_le _
    | cons a as =>
      cases n with
      | zero => exact absurd h.length_le (Nat.not_succ_le_zero _)
      | succ n =>
        rw [List.take_succ_cons] at h
        cases hab : same a b with
        | true =>
          have hrest := ih h.tail
          rw [leftmost_cons_of_same hab, List.flatMap_cons, List.length_append, Nat.add_comm]
          exact Nat.succ_le_succ hrest
        | false =>
          have hrest := ih (h.skip hab)
          rw [leftmost_cons_of_not_same hab]
          cases hl : leftmost same (a :: as) bs with
          | nil => exact Nat.zero_le _
          | cons s l =>
            rw [hl] at hrest
            exact Nat.succ_le_succ hrest

/-- **Taking the first partner that is left finds the leftmost embedding.** -/
theorem Embeds.isLeftmost {as : List α} {bs : List β} (h : Embeds same as bs) :
    IsLeftmost same as bs (leftmost same as bs) where
  fits := leftmost_fits as bs
  partners := h.partners
  earliest k n hk := by
    rw [take_leftmost]
    exact Embeds.length_all_le hk

/-! ## What is left out -/

theorem length_flatMap_all (stretches : List (Stretch β)) :
    (stretches.flatMap Stretch.all).length
      = stretches.length + (stretches.flatMap Stretch.passed).length := by
  induction stretches with
  | nil => rfl
  | cons s rest ih =>
    rw [List.flatMap_cons, List.flatMap_cons, List.length_append, List.length_append, ih,
      Stretch.all, List.length_append, List.length_singleton, List.length_cons]
    omega

/-- As many elements are left out as one sequence has more than the other. -/
theorem IsLeftmost.length_leftOut {as : List α} {bs : List β} {stretches : List (Stretch β)}
    (h : IsLeftmost same as bs stretches) :
    (leftOut stretches bs).length = bs.length - as.length := by
  have hfits := h.fits.length_le
  have hall := length_flatMap_all stretches
  have hlen := h.partners.length_eq
  rw [leftOut, List.length_append, List.length_drop]
  omega

theorem passed_sublist_all (stretches : List (Stretch β)) :
    (stretches.flatMap Stretch.passed).Sublist (stretches.flatMap Stretch.all) := by
  induction stretches with
  | nil => exact List.Sublist.slnil
  | cons s rest ih => exact (List.sublist_append_left _ _).append ih

/-- What the stretches pass over does not depend on whose stretches they are. -/
theorem flatMap_passed_zip {as : List α} {stretches : List (Stretch β)}
    (h : stretches.length ≤ as.length) :
    (as.zip stretches).flatMap (fun p => p.2.passed) = stretches.flatMap Stretch.passed := by
  rw [← List.flatMap_map Prod.snd Stretch.passed, List.map_snd_zip h]

/-- What is left out keeps its order. -/
theorem IsLeftmost.leftOut_sublist {as : List α} {bs : List β} {stretches : List (Stretch β)}
    (h : IsLeftmost same as bs stretches) : (leftOut stretches bs).Sublist bs := by
  obtain ⟨rest, rfl⟩ := h.fits
  rw [leftOut, List.drop_left]
  exact (passed_sublist_all stretches).append (List.Sublist.refl rest)

/-! ## Embeddings that pass nothing over -/

theorem flatMap_all_of_passed_eq_nil {stretches : List (Stretch β)}
    (h : stretches.flatMap Stretch.passed = []) :
    stretches.flatMap Stretch.all = stretches.map Stretch.partner := by
  induction stretches with
  | nil => rfl
  | cons s rest ih =>
    rw [List.flatMap_cons, List.append_eq_nil_iff] at h
    rw [List.flatMap_cons, List.map_cons, ih h.2, Stretch.all, h.1]
    rfl

/-- **The leftmost embedding passes nothing over exactly when the other sequence starts with the
partners.** -/
theorem IsLeftmost.passed_eq_nil_iff {as : List α} {bs : List β} {stretches : List (Stretch β)}
    (h : IsLeftmost same as bs stretches) :
    stretches.flatMap Stretch.passed = [] ↔
      List.Forall₂ (fun a b => same a b = true) as (bs.take as.length) := by
  have hlen := h.partners.length_eq
  constructor
  · intro hnil
    have hfits := h.fits
    rw [flatMap_all_of_passed_eq_nil hnil, List.prefix_iff_eq_take, List.length_map, ← hlen]
      at hfits
    rw [← hfits, List.forall₂_map_right_iff]
    exact h.partners
  · intro hstart
    have hembeds : Embeds same (as.take as.length) (bs.take as.length) := by
      rw [List.take_length]
      exact List.sublistForall₂_iff.mpr ⟨_, hstart, List.Sublist.refl _⟩
    -- a start as long as the sequence has no room for anything else
    have hshort := h.earliest _ _ hembeds
    rw [hlen, List.take_length, length_flatMap_all] at hshort
    exact List.eq_nil_of_length_eq_zero (by omega)

end SlotSafe
