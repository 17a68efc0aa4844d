import Mathlib.Data.List.Forall2
import Mathlib.Data.List.SplitBy
import SlotSafe.Proofs.DecoderSteps

/-!
# Runs of marks, decoded one by one

The decoder scans a whole text, and its lookahead has no bound. This module says without a scan
what becomes of a text. It falls into maximal runs, of marks and of other characters in turn, and
**each run is restored by itself** (`decode_eq_iff_restores`). A run of other characters is left
alone. A run of marks is kept up to the first place from which on it is a row of spellings, and from
there on it is read to its end: nothing is left over once a spelling has been read.

A row can be read in several ways, since what spells a comma begins like a closing parenthesis. Its
reading is the one that takes the comma wherever what is left is a row still (`IsReading`).
-/

namespace SlotSafe.TypeKey

/-- A text without marks. -/
def NoMarks (s : List Char) : Prop := ∀ c ∈ s, isMark c = false

/-- The maximal runs of a text, of marks and of other characters in turn. -/
def runs (s : List Char) : List (List Char) := s.splitBy fun c d => isMark c == isMark d

/-- **The reading of a row**: signs whose spelling is the row, with a closing parenthesis only where
a comma would leave what is no row. -/
structure IsReading (r k : List Char) : Prop where
  signs : ∀ c ∈ k, IsSign c
  spelled : encodeChars k = r
  commaFirst : ∀ before after rest, k = before ++ ')' :: after →
    encodeChars after = '_' :: rest → ¬ IsRow rest

/-- **What a run is restored to.** Other characters are kept. Of marks, those before the least place
from which on there is a row are kept, and the row is read. -/
inductive Restores (r : List Char) : List Char → Prop where
  | kept (hr : NoMarks r) : Restores r r
  | read (p : Nat) {k : List Char} (hr : AllMarks r) (hleast : ∀ q < p, ¬ IsRow (r.drop q))
      (hk : IsReading (r.drop p) k) : Restores r (r.take p ++ k)

/-! ## The reading of a row -/

theorem isReading_nil : IsReading [] [] where
  signs := List.forall_mem_nil _
  spelled := rfl
  commaFirst before after _ h := absurd h (List.append_ne_nil_of_right_ne_nil before
    (List.cons_ne_nil ')' after)).symm

/-- What is read first, and what is read after it. -/
theorem isReading_cons_iff {d : Char} {r k : List Char} :
    IsReading r (d :: k) ↔ r = encodeChar d ++ encodeChars k ∧ IsSign d
      ∧ (d = ')' → ∀ rest, encodeChars k = '_' :: rest → ¬ IsRow rest)
      ∧ IsReading (encodeChars k) k := by
  constructor
  · rintro ⟨hsigns, hspelled, hcomma⟩
    obtain ⟨hd, hk⟩ := List.forall_mem_cons.mp hsigns
    refine ⟨hspelled.symm, hd, fun hclosing rest => hcomma [] k rest (by rw [hclosing]; rfl),
      hk, rfl, fun before after rest h => hcomma (d :: before) after rest (congrArg _ h)⟩
  · rintro ⟨rfl, hd, hcomma, hk⟩
    refine ⟨List.forall_mem_cons.mpr ⟨hd, hk.signs⟩, rfl, fun before after rest h hrest => ?_⟩
    cases before with
    | nil =>
      obtain ⟨rfl, rfl⟩ := List.cons.inj h
      exact hcomma rfl rest hrest
    | cons c before => exact hk.commaFirst before after rest (List.cons.inj h).2 hrest

/-- Only rows are read. -/
theorem IsReading.isRow {r k : List Char} (h : IsReading r k) : IsRow r := by
  induction k generalizing r with
  | nil => exact h.spelled ▸ IsRow.nil
  | cons d k ih =>
    obtain ⟨rfl, hd, -, hk⟩ := isReading_cons_iff.mp h
    exact hd.isRow_append (ih hk)

/-- **The decoder reads a row in this way.** -/
theorem decodes_iff_isReading {r k : List Char} (hr : IsRow r) : Decodes r k ↔ IsReading r k := by
  constructor
  · intro h
    induction h with
    | done => exact isReading_nil
    | keep hc h _ =>
      have hmark := hr.allMarks _ List.mem_cons_self
      exact absurd ((closes_iff hr.allMarks).mpr hr) (hc hmark)
    | @read d s k hd hs hcomma h ih =>
      have hmarks : AllMarks s := hr.allMarks.of_append
      have hk := ih ((closes_iff hmarks).mp hs)
      obtain rfl := hk.spelled
      refine isReading_cons_iff.mpr ⟨rfl, hd, fun hclosing rest hrest hrow => ?_, hk⟩
      exact hcomma hclosing rest hrest ((closes_iff hrow.allMarks).mpr hrow)
  · intro h
    clear hr
    induction k generalizing r with
    | nil => exact h.spelled ▸ Decodes.done
    | cons d k ih =>
      obtain ⟨rfl, hd, hcomma, hk⟩ := isReading_cons_iff.mp h
      have hmarks := hk.isRow.allMarks
      refine .read hd ((closes_iff hmarks).mpr hk.isRow) (fun hclosing rest hrest hrow => ?_)
        (ih hk)
      have hmarks' : AllMarks rest := (List.forall_mem_cons.mp (hrest ▸ hmarks)).2
      exact hcomma hclosing rest hrest ((closes_iff hmarks').mp hrow)

/-! ## What a run is restored to -/

theorem NoMarks.decodes_append {r u v : List Char} (hr : NoMarks r) (h : Decodes u v) :
    Decodes (r ++ u) (r ++ v) := by
  induction r with
  | nil => exact h
  | cons c r ih =>
    obtain ⟨hc, hr⟩ := List.forall_mem_cons.mp hr
    exact .keep (fun hmark => absurd (hc.symm.trans hmark) Bool.false_ne_true) (ih hr)

theorem NoMarks.decodes {r : List Char} (hr : NoMarks r) : Decodes r r := by
  have h := hr.decodes_append .done
  rwa [List.append_nil] at h

/-- Marks are decoded to what they are restored to. -/
theorem Decodes.restores {r t : List Char} (h : Decodes r t) (hr : AllMarks r) : Restores r t := by
  have hplace : ∃ p k, (∀ q < p, ¬ IsRow (r.drop q)) ∧ IsReading (r.drop p) k
      ∧ t = r.take p ++ k := by
    induction h with
    | done => exact ⟨0, [], fun q hq => absurd hq (Nat.not_lt_zero q), isReading_nil, rfl⟩
    | @keep c s t hc h ih =>
      obtain ⟨hmark, hs⟩ := List.forall_mem_cons.mp hr
      obtain ⟨p, k, hleast, hk, rfl⟩ := ih hs
      refine ⟨p + 1, k, fun q hq => ?_, hk, rfl⟩
      cases q with
      | zero => exact fun hrow => hc hmark ((closes_iff hr).mpr hrow)
      | succ q => exact hleast q (Nat.lt_of_succ_lt_succ hq)
    | @read d s t hd hs hcomma h _ =>
      have hmarks : AllMarks s := hr.of_append
      have hrow := hd.isRow_append ((closes_iff hmarks).mp hs)
      exact ⟨0, d :: t, fun q hq => absurd hq (Nat.not_lt_zero q),
        (decodes_iff_isReading hrow).mp (.read hd hs hcomma h), rfl⟩
  obtain ⟨p, k, hleast, hk, rfl⟩ := hplace
  exact .read p hr hleast hk

/-- Nothing but what a run is decoded to is it restored to. -/
theorem Restores.decodes {r t : List Char} (h : Restores r t) : Decodes r t := by
  cases h with
  | kept hr => exact hr.decodes
  | read p hr hleast hk =>
    induction p generalizing r with
    | zero => exact (decodes_iff_isReading hk.isRow).mpr hk
    | succ p ih =>
      cases r with
      | nil => exact absurd IsRow.nil (hleast 0 (Nat.succ_pos p))
      | cons c r =>
        obtain ⟨-, hmarks⟩ := List.forall_mem_cons.mp hr
        refine .keep (fun _ hrow => hleast 0 (Nat.succ_pos p) ((closes_iff hr).mp hrow)) ?_
        exact ih hmarks (fun q hq => hleast (q + 1) (Nat.succ_lt_succ hq)) hk

/-! ## Run by run -/

/-- **A run of marks is decoded without what follows it.** -/
theorem Decodes.append {r t u v : List Char} (h : Decodes r t) (hr : AllMarks r) (hu : EndsRun u)
    (hv : Decodes u v) : Decodes (r ++ u) (t ++ v) := by
  induction h with
  | done => exact hv
  | keep hc h ih =>
    refine .keep (fun hmark hrow => hc hmark ?_) (ih (List.forall_mem_cons.mp hr).2)
    exact (closes_iff hr).mpr ((closes_append_iff hr hu).mp hrow)
  | @read d s t hd hs hcomma h ih =>
    have hmarks : AllMarks s := hr.of_append
    have hrow := (closes_append_iff hmarks hu).mpr ((closes_iff hmarks).mp hs)
    rw [List.append_assoc]
    refine .read hd hrow (fun hclosing rest hrest => ?_) (ih hmarks)
    cases s with
    | nil =>
      obtain rfl : u = '_' :: rest := hrest
      exact absurd (hu '_' rfl) (by decide)
    | cons c s =>
      obtain ⟨rfl, rfl⟩ := List.cons.inj hrest
      obtain ⟨-, hmarks⟩ := List.forall_mem_cons.mp hmarks
      exact fun h => hcomma hclosing s rfl
        ((closes_iff hmarks).mpr ((closes_append_iff hmarks hu).mp h))

/-- **Runs are decoded one by one**, as long as none that could go on a run of marks follows one. -/
theorem decodes_flatten {rs ts : List (List Char)} (h : List.Forall₂ Decodes rs ts)
    (hsame : ∀ r ∈ rs, AllMarks r ∨ NoMarks r)
    (hnext : rs.IsChain fun r r' => AllMarks r → r' ≠ [] ∧ EndsRun r') :
    Decodes rs.flatten ts.flatten := by
  induction h with
  | nil => exact .done
  | @cons r t rs ts hrt h ih =>
    obtain ⟨hr, hsame⟩ := List.forall_mem_cons.mp hsame
    have hrest := ih hsame hnext.tail
    rw [List.flatten_cons, List.flatten_cons]
    obtain hr | hr := hr
    · refine hrt.append hr ?_ hrest
      cases rs with
      | nil => exact endsRun_nil
      | cons r' rs =>
        obtain ⟨hne, hends⟩ := (List.isChain_cons_cons.mp hnext).1 hr
        obtain ⟨c, r', rfl⟩ := List.exists_cons_of_ne_nil hne
        exact hends
    · rw [← decodes_iff.mp hrt, decodes_iff.mp hr.decodes]
      exact hr.decodes_append hrest

/-- A run is all marks or has none. -/
theorem allMarks_or_noMarks {s r : List Char} (h : r ∈ runs s) : AllMarks r ∨ NoMarks r := by
  obtain ⟨c, r, rfl⟩ := List.exists_cons_of_ne_nil (List.ne_nil_of_mem_splitBy h)
  have hchain : ((c :: r).map isMark).IsChain (· = ·) :=
    (List.isChain_map isMark).mpr ((List.isChain_of_mem_splitBy h).imp fun _ _ => eq_of_beq)
  have hsame : ∀ d ∈ c :: r, isMark d = isMark c := by
    rw [List.map_cons, List.isChain_cons_eq_iff_eq_replicate] at hchain
    intro d hd
    obtain rfl | hd := List.mem_cons.mp hd
    · rfl
    · exact List.eq_of_mem_replicate (hchain ▸ List.mem_map_of_mem hd)
  cases hc : isMark c with
  | true => exact .inl fun d hd => (hsame d hd).trans hc
  | false => exact .inr fun d hd => (hsame d hd).trans hc

/-- After a run of marks comes a run that does not begin with one. -/
theorem isChain_runs (s : List Char) :
    (runs s).IsChain fun r r' => AllMarks r → r' ≠ [] ∧ EndsRun r' := by
  refine (List.isChain_getLast_head_splitBy _ s).imp fun r r' ⟨hr, hr', hdiff⟩ hmarks => ?_
  refine ⟨hr', fun c hc => ?_⟩
  rw [hmarks _ (List.getLast_mem hr)] at hdiff
  rw [List.head?_eq_some_head hr', Option.mem_some_iff] at hc
  simpa [hc] using hdiff

/-- **A text is decoded run by run.** -/
theorem decodes_of_runs {s : List Char} {ts : List (List Char)}
    (h : List.Forall₂ Restores (runs s) ts) : Decodes s ts.flatten := by
  have hruns := decodes_flatten (h.imp fun _ _ => Restores.decodes)
    (fun _ => allMarks_or_noMarks) (isChain_runs s)
  rwa [runs, List.flatten_splitBy] at hruns

theorem restores_decodeChars {r : List Char} (h : AllMarks r ∨ NoMarks r) :
    Restores r (decodeChars r) := by
  obtain hr | hr := h
  · exact (decodes_decodeChars r).restores hr
  · rw [decodes_iff.mp hr.decodes]
    exact .kept hr

/-- **The decoder restores each run by itself**: a text is decoded to what its runs are restored to,
one after the other, and to nothing else. Neither the other runs nor the characters between them
matter to a run of marks. -/
theorem decode_eq_iff_restores (s t : String) :
    decode s = t ↔ ∃ ts, List.Forall₂ Restores (runs s.toList) ts ∧ t.toList = ts.flatten := by
  constructor
  · rintro rfl
    have hruns : List.Forall₂ Restores (runs s.toList) ((runs s.toList).map decodeChars) := by
      rw [List.forall₂_map_right_iff, List.forall₂_same]
      exact fun r hr => restores_decodeChars (allMarks_or_noMarks hr)
    refine ⟨_, hruns, ?_⟩
    rw [decode, String.toList_ofList]
    exact decodes_iff.mp (decodes_of_runs hruns)
  · rintro ⟨ts, hruns, ht⟩
    rw [decode, decodes_iff.mp (decodes_of_runs hruns), ← ht, String.ofList_toList]

/-- A stray mark in front of a row, a row that could be read in another way, and marks behind which
no row comes. -/
example : decode "a$$_$_b_$_$_c_$$" = "a$((b,(c_$$" := by decide

end SlotSafe.TypeKey
