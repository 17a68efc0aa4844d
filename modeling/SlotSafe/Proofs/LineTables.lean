import Mathlib.Data.List.Sort
import SlotSafe.Proofs.Success
import SlotSafe.SourceReference

/-!
# Line tables tell the lines

A node is located with a line table that is searched by halving and kept for the nodes that follow.
None of this shows in the result: **nodes that are located one after the other stand where each of
them stands by itself** (`Sources.locateAll_eq_map`), namely in the line that is found by counting
the line feeds before them (`Sources.locate_eq`).

There are two reasons. The offsets in a table ascend, so that halving finds how many of them are not
past an offset (`LineTable.search_spec`), and there is one for each line feed. And whatever tables
are kept, they are those that would be made anew (`Sources.Keeps`), which every node preserves,
whether it is located or not.
-/

namespace SlotSafe

namespace LineTable

/-! ## Halving -/

/-- **A place that splits offsets**: those before it are at most the bound, those from it on are
past it. -/
structure Splits (starts : List Nat) (bound : Int) (n : Nat) : Prop where
  before : ∀ i (h : i < starts.length), i < n → (starts[i] : Int) ≤ bound
  after : ∀ i (h : i < starts.length), n ≤ i → bound < starts[i]

/-- The place that splits offsets is the number of those that are at most the bound. -/
theorem Splits.countP_eq {starts : List Nat} {bound : Int} {n : Nat} (h : Splits starts bound n)
    (hn : n ≤ starts.length) : starts.countP (fun start : Nat => ((start : Int) ≤ bound : Bool)) = n := by
  have hbefore : (starts.take n).countP (fun start : Nat => ((start : Int) ≤ bound : Bool)) = n := by
    rw [List.countP_eq_length.mpr fun start hstart => ?_, List.length_take_of_le hn]
    obtain ⟨i, hi, rfl⟩ := List.mem_iff_getElem.mp hstart
    rw [List.length_take, Nat.lt_min] at hi
    rw [List.getElem_take]
    exact decide_eq_true (h.before i hi.2 hi.1)
  have hafter : (starts.drop n).countP (fun start : Nat => ((start : Int) ≤ bound : Bool)) = 0 := by
    refine List.countP_eq_zero.mpr fun start hstart => ?_
    obtain ⟨i, hi, rfl⟩ := List.mem_iff_getElem.mp hstart
    rw [List.length_drop] at hi
    have hpast := h.after (n + i) (by omega) (Nat.le_add_right n i)
    rw [List.getElem_drop]
    simpa using hpast
  rw [← List.take_append_drop n starts, List.countP_append, hbefore, hafter, Nat.add_zero]

/-- **Halving finds the place that splits ascending offsets**, if it lies in the range in which it is
looked for. -/
theorem search_spec {starts : List Nat} (hstarts : starts.Pairwise (· < ·)) (bound : Int)
    {fuel low high : Nat} (hfuel : high ≤ low + fuel) (hrange : low ≤ high)
    (hhigh : high ≤ starts.length)
    (hbefore : ∀ i (h : i < starts.length), i < low → (starts[i] : Int) ≤ bound)
    (hafter : ∀ i (h : i < starts.length), high ≤ i → bound < starts[i]) :
    (LineTable.mk starts.toArray).search bound fuel low high ≤ starts.length
      ∧ Splits starts bound ((LineTable.mk starts.toArray).search bound fuel low high) := by
  induction fuel generalizing low high with
  | zero =>
    obtain rfl : low = high := by omega
    exact ⟨hhigh, hbefore, hafter⟩
  | succ fuel ih =>
    unfold search
    by_cases hlt : low < high
    · have hmiddle : (low + high) / 2 < starts.length := by omega
      have hget : (starts.toArray.getD ((low + high) / 2) 0) = starts[(low + high) / 2] := by
        simp [Array.getD, hmiddle]
      have hmono : ∀ i j (hi : i < starts.length) (hj : j < starts.length), i ≤ j →
          (starts[i] : Int) ≤ starts[j] := by
        intro i j hi hj hij
        obtain rfl | hij := hij.eq_or_lt
        · exact le_refl _
        · exact_mod_cast (List.pairwise_iff_getElem.mp hstarts i j hi hj hij).le
      simp only [if_pos hlt, hget]
      split
      · next hpast =>
        refine ih (by omega) (by omega) (by omega) hbefore fun i hi hle => ?_
        exact hpast.trans_le (hmono _ i hmiddle hi hle)
      · next hpast =>
        refine ih (by omega) (by omega) (by omega) (fun i hi hle => ?_) hafter
        exact (hmono i _ hi hmiddle (by omega)).trans (not_lt.mp hpast)
    · obtain rfl : low = high := by omega
      rw [if_neg hlt]
      exact ⟨hhigh, hbefore, hafter⟩

/-! ## Line feeds -/

theorem lt_of_mem_startsAfter {offset start : Nat} {octets : List UInt8}
    (h : start ∈ startsAfter offset octets) : offset < start := by
  induction octets generalizing offset with
  | nil => cases h
  | cons b rest ih =>
    unfold startsAfter at h
    split at h
    · obtain rfl | h := List.mem_cons.mp h
      · exact Nat.lt_succ_self offset
      · exact (Nat.lt_succ_self offset).trans (ih h)
    · exact (Nat.lt_succ_self offset).trans (ih h)

theorem pairwise_startsAfter (offset : Nat) (octets : List UInt8) :
    (startsAfter offset octets).Pairwise (· < ·) := by
  induction octets generalizing offset with
  | nil => exact .nil
  | cons b rest ih =>
    unfold startsAfter
    split
    · exact .cons (fun _ hstart => lt_of_mem_startsAfter hstart) (ih _)
    · exact ih _

/-- **There is a line for each line feed**: as many begin up to a bound as there are line feeds
before it. -/
theorem countP_startsAfter (bound : Int) (offset : Nat) (octets : List UInt8) :
    (startsAfter offset octets).countP (fun start : Nat => ((start : Int) ≤ bound : Bool))
      = (octets.take (bound - offset).toNat).count lineFeed := by
  induction octets generalizing offset with
  | nil => rw [List.take_nil]; rfl
  | cons b rest ih =>
    by_cases hbound : (offset : Int) < bound
    · have htake : (bound - offset).toNat = (bound - (offset + 1 : Nat)).toNat + 1 := by omega
      rw [startsAfter, htake, List.take_succ_cons, List.count_cons, ← ih (offset + 1)]
      by_cases hb : b = lineFeed
      · have hle : ((offset + 1 : Nat) : Int) ≤ bound := by omega
        rw [if_pos hb, List.countP_cons, if_pos (decide_eq_true hle), if_pos (beq_iff_eq.mpr hb)]
      · rw [if_neg hb, if_neg (by simpa using hb)]
        exact (Nat.add_zero _).symm
    · have htake : (bound - offset).toNat = 0 := by omega
      rw [htake, List.take_zero, List.count_nil, List.countP_eq_zero]
      intro start hstart
      have hlt := lt_of_mem_startsAfter hstart
      simp only [decide_eq_true_eq, not_le]
      omega

/-- Halving counts the lines that begin at an offset or before it. -/
theorem lineOf_ofOctets_eq_countP (octets : List UInt8) (start : Int) :
    (ofOctets octets).lineOf start
      = (0 :: startsAfter 0 octets).countP fun n : Nat => ((n : Int) ≤ start : Bool) := by
  have hstarts : (0 :: startsAfter 0 octets).Pairwise (· < ·) :=
    .cons (fun _ hstart => lt_of_mem_startsAfter hstart) (pairwise_startsAfter 0 octets)
  obtain ⟨hle, hsplits⟩ := search_spec hstarts start (Nat.le_add_left _ 0) (Nat.zero_le _) (le_refl _)
    (fun i _ hi => absurd hi (Nat.not_lt_zero i)) (fun i hi hle => absurd hi (not_lt.mpr hle))
  simpa [lineOf, ofOctets] using (hsplits.countP_eq hle).symm

/-- **The line of an offset is one more than the line feeds before it.** -/
theorem lineOf_ofOctets (octets : List UInt8) {start : Int} (h : 0 ≤ start) :
    (ofOctets octets).lineOf start = 1 + (octets.take start.toNat).count lineFeed := by
  rw [lineOf_ofOctets_eq_countP, List.countP_cons, if_pos (by simpa using h), countP_startsAfter,
    Nat.add_comm, Int.natCast_zero, Int.sub_zero]

end LineTable

namespace Sources

variable {s : Sources} {kept : LineTables}

/-! ## Kept tables -/

/-- **Kept tables that are sound**: each is the one that would be made anew. -/
def Keeps (s : Sources) (kept : LineTables) : Prop :=
  ∀ source lines path, kept.lookup source = some lines → s.paths.find? (.int source) = some path →
    s.lines path = .ok lines

theorem keeps_nil : s.Keeps [] := fun _ _ _ h => by cases h

/-- A table that has been made is sound to keep. -/
theorem Keeps.cons (hkept : s.Keeps kept) {source : Int} {lines : Option LineTable} {path : Document}
    (hpath : s.paths.find? (.int source) = some path) (hlines : s.lines path = .ok lines) :
    s.Keeps ((source, lines) :: kept) := by
  intro asked found other hfound hother
  rw [List.lookup_cons] at hfound
  split at hfound
  · next hasked =>
    obtain rfl := eq_of_beq hasked
    obtain rfl := Option.some.inj (hpath.symm.trans hother)
    obtain rfl := Option.some.inj hfound
    exact hlines
  · exact hkept asked found other hfound hother

/-- **Whatever is kept, the lines are those of the source**, and what is kept from then on is sound
again. -/
theorem Keeps.linesOf (hkept : s.Keeps kept) {source : Int} {path : Document}
    (hpath : s.paths.find? (.int source) = some path) :
    (∃ fault, s.linesOf kept source path = .error fault ∧ s.lines path = .error fault)
      ∨ ∃ lines kept', s.linesOf kept source path = .ok (lines, kept') ∧ s.lines path = .ok lines
          ∧ s.Keeps kept' := by
  unfold Sources.linesOf
  cases hfound : kept.lookup source with
  | some lines => exact .inr ⟨lines, kept, rfl, hkept source lines path hfound hpath, hkept⟩
  | none =>
    cases hlines : s.lines path with
    | error fault => exact .inl ⟨fault, rfl, rfl⟩
    | ok lines => exact .inr ⟨lines, _, rfl, rfl, hkept.cons hpath hlines⟩

/-! ## Nodes one after the other -/

variable [NestingLimits]

/-- Where a node stands, told with the lines of its source and no others. -/
def placeOf (s : Sources) (node : Document) : Logged Document := do
  let (src, reference) ← referenceOf node
  match s.paths.find? (.int reference.source) with
  | none =>
    Logged.report .debug .sources "Source id not found in compiler output" [("src", src)]
    pure unknown
  | some path => s.place path reference.start

/-- **One node.** It is located by the lines of its source, whatever is kept, and what is kept stays
sound, also where the node is not located at all. -/
theorem Keeps.locateKeeping (hkept : s.Keeps kept) (node : Document) :
    (s.locateKeeping kept node).1 = s.placeOf node ∧ s.Keeps (s.locateKeeping kept node).2 := by
  unfold placeOf Sources.locateKeeping
  cases referenceOf node with
  | error fault => exact ⟨rfl, hkept⟩
  | ok found =>
    obtain ⟨src, reference⟩ := found
    rw [Logged.lift_ok_bind]
    dsimp only
    cases hpath : s.paths.find? (.int reference.source) with
    | none => exact ⟨rfl, hkept⟩
    | some path =>
      obtain ⟨fault, hlinesOf, hlines⟩ | ⟨lines, kept', hlinesOf, hlines, hkept'⟩ :=
        hkept.linesOf hpath
      · have hplace : s.place path reference.start = .error fault := by
          unfold place
          rw [hlines]
          rfl
        simp only [hlinesOf, hplace]
        exact ⟨rfl, hkept⟩
      · have hplace : s.place path reference.start = placeIn path lines reference.start := by
          unfold place
          rw [hlines]
          rfl
        simp only [hlinesOf, hplace]
        exact ⟨rfl, hkept'⟩

/-- A node by itself. -/
theorem locate_eq (s : Sources) (node : Document) : s.locate node = s.placeOf node :=
  (keeps_nil.locateKeeping node).1

/-- **Nodes that are located one after the other stand where each of them stands by itself.** -/
theorem locateAll_eq_map (hkept : s.Keeps kept) (nodes : List Document) :
    s.locateAll kept nodes = nodes.map s.locate := by
  induction nodes generalizing kept with
  | nil => rfl
  | cons node rest ih =>
    obtain ⟨hfound, hkept'⟩ := hkept.locateKeeping node
    exact congrArg₂ List.cons (hfound.trans (s.locate_eq node).symm) (ih hkept')

end Sources

end SlotSafe
