import SlotSafe.Proofs.KeyRoundTrip

/-!
# The decoder, step by step

The decoder looks ahead over a whole run of marks and distinguishes many cases, but all it ever
does is one of two things. It **keeps** a character with which no row of spellings begins, or it
**reads** a spelling in front of such a row, as a comma wherever it can. As a relation, that is two
rules and one for the end (`Decodes`), and the cases are only needed to show that the decoder follows
them (`decodes_iff`).

Whether a mark is kept depends on what follows, and decoding changes what follows: where a spelling
was, there is a parenthesis or a comma, which is no mark. So a mark that was kept the first time
could be read the second time. It is not. **What is a row of spellings after decoding was one
before** (`Decodes.closes_of_closes`), since a spelling is only read in front of another row, and so
decoding twice is decoding once (`decode_decode`).
-/

namespace SlotSafe.TypeKey

/-- The signs that have a spelling. -/
def IsSign (c : Char) : Prop := c = '(' ∨ c = ')' ∨ c = ','

/-- A text that consists of marks. -/
def AllMarks (s : List Char) : Prop := ∀ c ∈ s, isMark c = true

/-- A text that does not begin with a mark, so that a run of marks in front of it ends there. -/
def EndsRun (s : List Char) : Prop := ∀ c ∈ s.head?, isMark c = false

/-- **A row of spellings**: one spelling after the other, and nothing else. -/
inductive IsRow : List Char → Prop where
  | nil : IsRow []
  | opening {r : List Char} (h : IsRow r) : IsRow ('$' :: '_' :: r)
  | comma {r : List Char} (h : IsRow r) : IsRow ('_' :: '$' :: '_' :: r)
  | closing {r : List Char} (h : IsRow r) : IsRow ('_' :: '$' :: r)

/-- **The steps of the decoder.** A mark is kept where no row of spellings begins with it, and any
other character is kept. A spelling is read in front of a row of spellings, and as that of a closing
parenthesis only if the mark behind it does not make it a comma's. -/
inductive Decodes : List Char → List Char → Prop where
  | done : Decodes [] []
  | keep {c : Char} {s t : List Char} (hc : isMark c = true → ¬ closes (c :: s) = true)
      (h : Decodes s t) : Decodes (c :: s) (c :: t)
  | read {d : Char} {s t : List Char} (hd : IsSign d) (hs : closes s = true)
      (hcomma : d = ')' → ∀ rest, s = '_' :: rest → ¬ closes rest = true)
      (h : Decodes s t) : Decodes (encodeChar d ++ s) (d :: t)

/-! ## The decoder takes these steps -/

theorem closes_closing_of_closes {s : List Char} (h : closes s = true) :
    closes ('_' :: '$' :: s) = true := by
  by_cases hhead : s.head? = some '_'
  · obtain ⟨rest, rfl⟩ := List.head?_eq_some_iff.mp hhead
    exact (closes_comma rest).trans (Bool.or_eq_true_iff.mpr (.inr h))
  · exact (closes_closing hhead).trans h

/-- The decoder keeps what is to be kept. -/
theorem decodeChars_keep {c : Char} {s : List Char}
    (h : isMark c = true → ¬ closes (c :: s) = true) :
    decodeChars (c :: s) = c :: decodeChars s := by
  rw [decodeChars.eq_def]
  split
  · next rest heq =>
    obtain ⟨rfl, rfl⟩ := List.cons.inj heq
    exact if_neg fun hrow => h rfl ((closes_opening rest).trans hrow)
  · next rest heq =>
    obtain ⟨rfl, rfl⟩ := List.cons.inj heq
    have hrow : ¬ (closes rest = true ∨ closes ('_' :: rest) = true) := fun hrow =>
      h rfl ((closes_comma rest).trans (Bool.or_eq_true_iff.mpr hrow))
    rw [if_neg fun hcomma => hrow (.inl hcomma), if_neg fun hclosing => hrow (.inr hclosing)]
  · next rest hmark heq =>
    obtain ⟨rfl, rfl⟩ := List.cons.inj heq
    exact if_neg fun hrow => h rfl (closes_closing_of_closes hrow)
  · next d rest _ _ _ heq =>
    obtain ⟨rfl, rfl⟩ := List.cons.inj heq
    rfl
  · next heq => exact absurd heq (List.cons_ne_nil c s)

/-- The decoder reads what is to be read. -/
theorem decodeChars_read {d : Char} {s : List Char} (hd : IsSign d) (hs : closes s = true)
    (hcomma : d = ')' → ∀ rest, s = '_' :: rest → ¬ closes rest = true) :
    decodeChars (encodeChar d ++ s) = d :: decodeChars s := by
  obtain rfl | rfl | rfl := hd
  · show decodeChars ('$' :: '_' :: s) = _
    rw [decodeChars, if_pos hs]
  · show decodeChars ('_' :: '$' :: s) = _
    by_cases hhead : s.head? = some '_'
    · obtain ⟨rest, rfl⟩ := List.head?_eq_some_iff.mp hhead
      rw [decodeChars, if_neg (hcomma rfl rest rfl), if_pos hs]
    · rw [decodeChars, if_pos hs]
      exact fun rest h => hhead (by rw [h]; rfl)
  · show decodeChars ('_' :: '$' :: '_' :: s) = _
    rw [decodeChars, if_pos hs]

/-- Every case of the decoder is a step. -/
theorem decodes_decodeChars (s : List Char) : Decodes s (decodeChars s) := by
  fun_induction decodeChars s with
  | case1 rest hcloses ih =>
    show Decodes (encodeChar '(' ++ rest) _
    exact .read (.inl rfl) hcloses (fun h => absurd h (by decide)) ih
  | case2 rest hcloses ih =>
    exact .keep (fun _ hrow => hcloses ((closes_opening rest).symm.trans hrow)) ih
  | case3 rest hcloses ih =>
    show Decodes (encodeChar ',' ++ rest) _
    exact .read (.inr (.inr rfl)) hcloses (fun h => absurd h (by decide)) ih
  | case4 rest hcomma hclosing ih =>
    show Decodes (encodeChar ')' ++ '_' :: rest) _
    refine .read (.inr (.inl rfl)) hclosing (fun _ rest' hrest => ?_) ih
    obtain rfl : rest = rest' := (List.cons.inj hrest).2
    exact hcomma
  | case5 rest hcomma hclosing ih =>
    refine .keep (fun _ hrow => ?_) ih
    exact (Bool.or_eq_true_iff.mp ((closes_comma rest).symm.trans hrow)).elim hcomma hclosing
  | case6 rest hmark hcloses ih =>
    show Decodes (encodeChar ')' ++ rest) _
    exact .read (.inr (.inl rfl)) hcloses (fun _ rest' hrest => (hmark rest' hrest).elim) ih
  | case7 rest hmark hcloses ih =>
    refine .keep (fun _ hrow => hcloses ?_) ih
    exact (closes_closing (head?_ne_of_forall hmark)).symm.trans hrow
  | case8 c rest hopening hcomma hclosing ih =>
    refine .keep (fun hc => Bool.eq_false_iff.mp ?_) ih
    obtain rfl | rfl : c = '_' ∨ c = '$' := by simpa [isMark] using hc
    · exact closes_underscore (head?_ne_of_forall fun r => hclosing r rfl)
    · exact closes_dollar (head?_ne_of_forall fun r => hopening r rfl)
  | case9 => exact .done

/-- **The decoder takes these steps and no others.** -/
theorem decodes_iff {s t : List Char} : Decodes s t ↔ decodeChars s = t := by
  constructor
  · intro h
    induction h with
    | done => rfl
    | keep hc h ih => rw [decodeChars_keep hc, ih]
    | read hd hs hcomma h ih => rw [decodeChars_read hd hs hcomma, ih]
  · rintro rfl
    exact decodes_decodeChars s

/-! ## Signs, marks and rows -/

theorem IsSign.isMark_eq_false {d : Char} (hd : IsSign d) : isMark d = false := by
  obtain rfl | rfl | rfl := hd <;> rfl

theorem IsSign.isRow_append {d : Char} (hd : IsSign d) {r : List Char} (hr : IsRow r) :
    IsRow (encodeChar d ++ r) := by
  obtain rfl | rfl | rfl := hd
  · exact hr.opening
  · exact hr.closing
  · exact hr.comma

theorem IsRow.allMarks {r : List Char} (hr : IsRow r) : AllMarks r := by
  induction hr with
  | nil => exact List.forall_mem_nil _
  | opening hr ih => simpa [AllMarks, isMark] using ih
  | comma hr ih => simpa [AllMarks, isMark] using ih
  | closing hr ih => simpa [AllMarks, isMark] using ih

/-- A row in front of a row makes a row. -/
theorem IsRow.closes_append {r s : List Char} (hr : IsRow r) (hs : closes s = true) :
    closes (r ++ s) = true := by
  induction hr with
  | nil => exact hs
  | opening hr ih => exact (closes_opening _).trans ih
  | comma hr ih => exact (closes_comma _).trans (Bool.or_eq_true_iff.mpr (.inl ih))
  | closing hr ih => exact closes_closing_of_closes ih

theorem endsRun_nil : EndsRun [] := fun c hc => absurd hc (Option.not_mem_none c)

theorem EndsRun.closes {u : List Char} (hu : EndsRun u) : closes u = true := by
  cases u with
  | nil => rfl
  | cons c u => exact closes_of_not_isMark (hu c rfl) u

theorem AllMarks.of_append {r s : List Char} (h : AllMarks (r ++ s)) : AllMarks s :=
  fun c hc => h c (List.mem_append_right r hc)

/-- The marks in front of what ends a run are the run. -/
theorem AllMarks.takeWhile_append {r u : List Char} (hr : AllMarks r) (hu : EndsRun u) :
    (r ++ u).takeWhile isMark = r := by
  rw [List.takeWhile_append_of_pos hr]
  cases u with
  | nil => exact List.append_nil r
  | cons c u => rw [List.takeWhile_cons_of_neg (by simp [hu c rfl]), List.append_nil]

/-- The row that a text begins with is its first run. -/
theorem exists_isRow_of_closes {s : List Char} (hs : closes s = true) :
    ∃ r u, IsRow r ∧ EndsRun u ∧ s = r ++ u := by
  have hdecodes := decodes_decodeChars s
  generalize decodeChars s = t at hdecodes
  induction hdecodes with
  | done => exact ⟨[], [], .nil, endsRun_nil, rfl⟩
  | @keep c s t hc h ih =>
    refine ⟨[], c :: s, .nil, fun d hd => ?_, rfl⟩
    obtain rfl := Option.mem_some_iff.mp hd
    exact eq_false_of_ne_true fun hmark => hc hmark hs
  | read hd hs' hcomma h ih =>
    obtain ⟨r, u, hr, hu, rfl⟩ := ih hs'
    exact ⟨_, u, hd.isRow_append hr, hu, (List.append_assoc _ _ _).symm⟩

/-- **The lookahead ends with the run**: what follows it makes no difference. -/
theorem closes_append_iff {r u : List Char} (hr : AllMarks r) (hu : EndsRun u) :
    closes (r ++ u) = true ↔ IsRow r := by
  constructor
  · intro h
    obtain ⟨r', u', hr', hu', heq⟩ := exists_isRow_of_closes h
    rwa [← hr.takeWhile_append hu, heq, hr'.allMarks.takeWhile_append hu']
  · exact fun h => h.closes_append hu.closes

theorem closes_iff {r : List Char} (hr : AllMarks r) : closes r = true ↔ IsRow r := by
  have h := closes_append_iff hr endsRun_nil
  rwa [List.append_nil] at h

/-! ## Decoding what is decoded -/

/-- Marks that are there after decoding were kept. -/
theorem Decodes.of_allMarks {r u s : List Char} (h : Decodes s (r ++ u)) (hr : AllMarks r) :
    ∃ s', s = r ++ s' ∧ Decodes s' u := by
  induction r generalizing s with
  | nil => exact ⟨s, rfl, h⟩
  | cons c r ih =>
    obtain ⟨hc, hr⟩ := List.forall_mem_cons.mp hr
    cases h with
    | keep _ h =>
      obtain ⟨s', rfl, hrest⟩ := ih h hr
      exact ⟨s', rfl, hrest⟩
    | read hd _ _ _ => exact absurd (hd.isMark_eq_false.symm.trans hc) Bool.false_ne_true

/-- Where no mark is left in front there was a row, which was read, or no mark either. -/
theorem Decodes.closes_of_endsRun {s t : List Char} (h : Decodes s t) (ht : EndsRun t) :
    closes s = true := by
  cases h with
  | done => rfl
  | keep _ h => exact closes_of_not_isMark (ht _ rfl) _
  | @read d s t hd hs _ _ =>
    obtain ⟨r, u, hr, hu, rfl⟩ := exists_isRow_of_closes hs
    rw [← List.append_assoc]
    exact (hd.isRow_append hr).closes_append hu.closes

/-- **Decoding makes no row of spellings**: the marks of a row that is there after decoding were
kept, in front of what is a row too. -/
theorem Decodes.closes_of_closes {s t : List Char} (h : Decodes s t) (ht : closes t = true) :
    closes s = true := by
  obtain ⟨r, u, hr, hu, rfl⟩ := exists_isRow_of_closes ht
  obtain ⟨s', rfl, hrest⟩ := h.of_allMarks hr.allMarks
  exact hr.closes_append (hrest.closes_of_endsRun hu)

/-- **What is decoded is kept as it is**: its marks were kept before, and its signs are no marks. -/
theorem Decodes.decodes_self {s t : List Char} (h : Decodes s t) : Decodes t t := by
  induction h with
  | done => exact .done
  | keep hc h ih => exact .keep (fun hmark ht => hc hmark ((h.keep hc).closes_of_closes ht)) ih
  | read hd _ _ _ ih =>
    exact .keep (fun hmark => absurd (hd.isMark_eq_false.symm.trans hmark) Bool.false_ne_true) ih

/-- **Decoding twice is decoding once**, whatever is decoded: a compiler's identifier, a key that
holds parentheses and commas already, or any other text. -/
theorem decode_decode (s : String) : decode (decode s) = decode s := by
  have hself := (decodes_decodeChars s.toList).decodes_self
  rw [decode, decode, String.toList_ofList, decodes_iff.mp hself]

end SlotSafe.TypeKey
