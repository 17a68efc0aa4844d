import Mathlib.Data.List.Chain
import Mathlib.Data.List.Infix
import SlotSafe.Proofs.TypeKeys

/-!
# Which keys come back from their identifiers

Decoding undoes encoding for the keys that the compiler's types have, and not for all. The spellings
of two neighbours can run together: `_(` is spelled `_$_`, which is the spelling of a comma, and so
are the first three marks of `),`. After an opening parenthesis or a comma a bare `_` has the
opposite effect, since a spelling in front of a stray mark is not decoded at all.

These are all the ways. Five pairs of neighbours are **confusable**, and a key without `$` comes
back exactly when it has none of them (`decode_encode_eq_iff`). That none may occur follows from
what the decoder writes, whatever it reads: **no decoded identifier has confusable neighbours**
(`isChain_decodeChars`). That no other pair does harm rests on a lookahead at any distance: after
parentheses and commas whose neighbours are not confusable the run is a row of spellings again
(`closes_encodeChars`), and with one mark less or one more it is not.
-/

namespace SlotSafe.TypeKey

/-- The pairs of neighbours whose spellings run together. -/
def confusable : List (List Char) := [['_', '('], ['(', '_'], [')', '_'], [',', '_'], [')', ',']]

/-- Whether two neighbours are told apart when they are spelled. -/
def Apart (c d : Char) : Prop := [c, d] ∉ confusable

instance (c d : Char) : Decidable (Apart c d) := inferInstanceAs (Decidable (_ ∉ _))

theorem apart_iff {c d : Char} :
    Apart c d ↔ (c = '_' → d ≠ '(') ∧ (c = '(' → d ≠ '_') ∧ (c = ',' → d ≠ '_')
      ∧ (c = ')' → d ≠ '_' ∧ d ≠ ',') := by
  simp only [Apart, confusable, List.mem_cons, List.cons.injEq, and_true, List.not_mem_nil,
    or_false, not_or]
  tauto

/-- A text has no confusable neighbours exactly when all its neighbours are apart. -/
theorem isChain_apart_iff {s : List Char} :
    s.IsChain Apart ↔ ∀ pair ∈ confusable, ¬ pair <:+: s := by
  constructor
  · intro hs pair hpair hinfix
    have hchain := hs.infix hinfix
    simp only [confusable, List.mem_cons, List.not_mem_nil, or_false] at hpair
    obtain rfl | rfl | rfl | rfl | rfl := hpair <;>
      exact absurd (List.isChain_pair.mp hchain) (by decide)
  · intro hs
    exact (List.isChain_isInfix s).imp (fun c d hinfix hmem => hs _ hmem hinfix)

/-! ## What the decoder writes -/

/-- A run that begins with `_` and does not go on with `$` is no row of spellings. -/
theorem closes_underscore {s : List Char} (h : s.head? ≠ some '$') :
    closes ('_' :: s) = false := by
  rw [closes, closings, closings_eq]
  cases s with
  | nil => rfl
  | cons c s =>
    have hc : c ≠ '$' := by simpa using h
    simp [isMark, hc]

/-- A run that begins with `$` and does not go on with `_` is no row of spellings. -/
theorem closes_dollar {s : List Char} (h : s.head? ≠ some '_') : closes ('$' :: s) = false := by
  rw [closes, closings, closings_eq]
  cases s with
  | nil => rfl
  | cons c s =>
    have hc : c ≠ '_' := by simpa using h
    simp [isMark, hc]

theorem head?_ne_of_forall {c : Char} {s : List Char} (h : ∀ rest, s = c :: rest → False) :
    s.head? ≠ some c := by
  intro hhead
  obtain ⟨rest, hrest⟩ := List.head?_eq_some_iff.mp hhead
  exact h rest hrest

/-- **How a decoded text begins**: as the text does, or with what its first spelling stands for. A
spelling is decoded only in front of a row of spellings. -/
theorem head?_decodeChars {s : List Char} {d : Char} (h : (decodeChars s).head? = some d) :
    s.head? = some d
      ∨ (d = '(' ∧ ∃ rest, s = '$' :: '_' :: rest ∧ closes rest = true)
      ∨ (d = ',' ∧ ∃ rest, s = '_' :: '$' :: '_' :: rest ∧ closes rest = true)
      ∨ d = ')' := by
  revert h
  fun_cases decodeChars s with
  | case1 rest hcloses =>
    exact fun h => Or.inr (Or.inl ⟨(Option.some.inj h).symm, rest, rfl, hcloses⟩)
  | case2 rest hcloses => exact Or.inl
  | case3 rest hcloses =>
    exact fun h => Or.inr (Or.inr (Or.inl ⟨(Option.some.inj h).symm, rest, rfl, hcloses⟩))
  | case4 rest hcomma hclosing => exact fun h => Or.inr (Or.inr (Or.inr (Option.some.inj h).symm))
  | case5 rest hcomma hclosing => exact Or.inl
  | case6 rest hmark hcloses => exact fun h => Or.inr (Or.inr (Or.inr (Option.some.inj h).symm))
  | case7 rest hmark hcloses => exact Or.inl
  | case8 c rest hopening hcomma hclosing => exact Or.inl
  | case9 => exact Or.inl

theorem opening_of_head? {s : List Char} (h : (decodeChars s).head? = some '(') :
    s.head? = some '(' ∨ ∃ rest, s = '$' :: '_' :: rest ∧ closes rest = true := by
  simpa using head?_decodeChars h

theorem comma_of_head? {s : List Char} (h : (decodeChars s).head? = some ',') :
    s.head? = some ',' ∨ ∃ rest, s = '_' :: '$' :: '_' :: rest ∧ closes rest = true := by
  simpa using head?_decodeChars h

/-- At the front of a row of spellings nothing is left as it is, least of all a `_`. -/
theorem head?_decodeChars_ne_underscore {s : List Char} (h : closes s = true) :
    (decodeChars s).head? ≠ some '_' := by
  fun_cases decodeChars s with
  | case1 rest hcloses => simp
  | case2 rest hcloses => simp
  | case3 rest hcloses => simp
  | case4 rest hcomma hclosing => simp
  | case5 rest hcomma hclosing =>
    rw [closes_comma, Bool.or_eq_true] at h
    exact absurd h (not_or.mpr ⟨hcomma, hclosing⟩)
  | case6 rest hmark hcloses => simp
  | case7 rest hmark hcloses =>
    rw [closes_closing (head?_ne_of_forall hmark)] at h
    exact absurd h hcloses
  | case8 c rest hopening hcomma hclosing =>
    intro hc
    obtain rfl : c = '_' := by simpa using hc
    rw [closes_underscore (head?_ne_of_forall (fun r => hclosing r rfl))] at h
    exact absurd h Bool.false_ne_true
  | case9 => simp

/-- A text without parentheses and commas, character by character. -/
def Plain (s : List Char) : Prop := ∀ c ∈ s, c ≠ '(' ∧ c ≠ ')' ∧ c ≠ ','

instance (s : List Char) : Decidable (Plain s) := inferInstanceAs (Decidable (∀ c ∈ s, _))

theorem Plain.head?_ne {s : List Char} (h : Plain s) :
    s.head? ≠ some '(' ∧ s.head? ≠ some ',' := by
  cases s with
  | nil => simp
  | cons c s =>
    obtain ⟨hopening, -, hcomma⟩ := h c List.mem_cons_self
    simp [hopening, hcomma]

theorem Plain.cons {c : Char} {s : List Char} (h : Plain s) (hc : c ≠ '(' ∧ c ≠ ')' ∧ c ≠ ',') :
    Plain (c :: s) := List.forall_mem_cons.mpr ⟨hc, h⟩

theorem Plain.of_cons {c : Char} {s : List Char} (h : Plain (c :: s)) : Plain s :=
  fun d hd => h d (List.mem_cons_of_mem c hd)

/-- **Nothing that is decoded has confusable neighbours.** -/
theorem isChain_decodeChars {s : List Char} (h : Plain s) : (decodeChars s).IsChain Apart := by
  fun_induction decodeChars s with
  | case1 rest hcloses ih =>
    refine (ih h.of_cons.of_cons).cons (fun d hd => ?_)
    have hne : d ≠ '_' := fun he => head?_decodeChars_ne_underscore hcloses (he ▸ hd)
    simp [apart_iff, hne]
  | case2 rest hcloses ih => exact (ih h.of_cons).cons (fun d hd => by simp [apart_iff])
  | case3 rest hcloses ih =>
    refine (ih h.of_cons.of_cons.of_cons).cons (fun d hd => ?_)
    have hne : d ≠ '_' := fun he => head?_decodeChars_ne_underscore hcloses (he ▸ hd)
    simp [apart_iff, hne]
  | case4 rest hcomma hclosing ih =>
    refine (ih h.of_cons.of_cons).cons (fun d hd => ?_)
    have hne : d ≠ '_' := fun he => head?_decodeChars_ne_underscore hclosing (he ▸ hd)
    have hne' : d ≠ ',' := by
      rintro rfl
      obtain hhead | ⟨r, hr, hcloses⟩ := comma_of_head? hd
      · simp at hhead
      · -- then the comma would have been read two marks earlier
        obtain rfl : rest = '$' :: '_' :: r := by simpa using hr
        exact hcomma ((closes_opening r).trans hcloses)
    simp [apart_iff, hne, hne']
  | case5 rest hcomma hclosing ih =>
    refine (ih h.of_cons).cons (fun d hd => ?_)
    have hne : d ≠ '(' := by
      rintro rfl
      obtain hhead | ⟨r, hr, hcloses⟩ := opening_of_head? hd
      · simp at hhead
      · obtain rfl : rest = r := by simpa using hr
        exact hcomma hcloses
    simp [apart_iff, hne]
  | case6 rest hmark hcloses ih =>
    refine (ih h.of_cons.of_cons).cons (fun d hd => ?_)
    have hne : d ≠ '_' := fun he => head?_decodeChars_ne_underscore hcloses (he ▸ hd)
    have hne' : d ≠ ',' := by
      rintro rfl
      obtain hhead | ⟨r, hr, -⟩ := comma_of_head? hd
      · exact h.of_cons.of_cons.head?_ne.2 hhead
      · exact hmark _ hr
    simp [apart_iff, hne, hne']
  | case7 rest hmark hcloses ih =>
    refine (ih h.of_cons).cons (fun d hd => ?_)
    have hne : d ≠ '(' := by
      rintro rfl
      obtain hhead | ⟨r, hr, -⟩ := opening_of_head? hd
      · simp at hhead
      · exact hmark r (by simpa using hr)
    simp [apart_iff, hne]
  | case8 c rest hopening hcomma hclosing ih =>
    refine (ih h.of_cons).cons (fun d hd => ?_)
    obtain ⟨hc, hc', hc''⟩ := h c List.mem_cons_self
    have hne : c = '_' → d ≠ '(' := by
      rintro rfl rfl
      obtain hhead | ⟨r, hr, -⟩ := opening_of_head? hd
      · exact h.of_cons.head?_ne.1 hhead
      · exact hclosing _ rfl hr
    exact apart_iff.mpr ⟨hne, fun h => absurd h hc, fun h => absurd h hc'', fun h => absurd h hc'⟩
  | case9 => exact List.isChain_nil

/-! ## What the encoder writes -/

theorem encodeChars_opening (k : List Char) :
    encodeChars ('(' :: k) = '$' :: '_' :: encodeChars k := rfl

theorem encodeChars_closing (k : List Char) :
    encodeChars (')' :: k) = '_' :: '$' :: encodeChars k := rfl

theorem encodeChars_comma (k : List Char) :
    encodeChars (',' :: k) = '_' :: '$' :: '_' :: encodeChars k := rfl

theorem encodeChars_of_ne {c : Char} (h : c ≠ '(' ∧ c ≠ ')' ∧ c ≠ ',') (k : List Char) :
    encodeChars (c :: k) = c :: encodeChars k := by
  rw [encodeChars_cons, encodeChar, if_neg h.1, if_neg h.2.1, if_neg h.2.2, List.singleton_append]

/-- The four ways to spell a character. -/
theorem encodeChar_cases (c : Char) :
    c = '(' ∨ c = ')' ∨ c = ',' ∨ (c ≠ '(' ∧ c ≠ ')' ∧ c ≠ ',') := by
  tauto

/-- Nothing that is encoded holds parentheses or commas. -/
theorem plain_encodeChars (k : List Char) : Plain (encodeChars k) := by
  induction k with
  | nil => exact fun c hc => absurd hc List.not_mem_nil
  | cons c k ih =>
    obtain rfl | rfl | rfl | hc := encodeChar_cases c
    · exact (ih.cons (by decide)).cons (by decide)
    · exact (ih.cons (by decide)).cons (by decide)
    · exact ((ih.cons (by decide)).cons (by decide)).cons (by decide)
    · rw [encodeChars_of_ne hc]
      exact ih.cons hc

/-- A spelled text begins with `$` only for an opening parenthesis. -/
theorem head?_encodeChars_ne_dollar {k : List Char} (hmark : '$' ∉ k)
    (h : k.head? ≠ some '(') : (encodeChars k).head? ≠ some '$' := by
  cases k with
  | nil => simp
  | cons c k =>
    obtain rfl | rfl | rfl | hc := encodeChar_cases c
    · exact absurd rfl h
    · rw [encodeChars_closing, List.head?_cons]
      decide
    · rw [encodeChars_comma, List.head?_cons]
      decide
    · have hne : c ≠ '$' := fun he => hmark (he ▸ List.mem_cons_self)
      simp [encodeChars_of_ne hc, hne]

/-- A spelled text begins with `_` for that itself, for a closing parenthesis or for a comma. -/
theorem head?_of_encodeChars {k : List Char} (h : (encodeChars k).head? = some '_') :
    k.head? = some '_' ∨ k.head? = some ')' ∨ k.head? = some ',' := by
  cases k with
  | nil => simp at h
  | cons c k =>
    obtain rfl | rfl | rfl | hc := encodeChar_cases c
    · rw [encodeChars_opening, List.head?_cons] at h
      exact absurd h (by decide)
    · exact Or.inr (Or.inl rfl)
    · exact Or.inr (Or.inr rfl)
    · rw [encodeChars_of_ne hc] at h
      exact Or.inl h

/-- After a closing parenthesis that is apart from what follows, a `_` comes from another one. -/
theorem exists_cons_of_closing {k : List Char} (hk : (')' :: k).IsChain Apart)
    (h : (encodeChars k).head? = some '_') : ∃ rest, k = ')' :: rest := by
  have hapart := hk.rel_head?
  obtain hhead | hhead | hhead := head?_of_encodeChars h
  · exact absurd (hapart hhead) (by decide)
  · exact List.head?_eq_some_iff.mp hhead
  · exact absurd (hapart hhead) (by decide)

/-! ## Reading a key back -/

/-- **What is spelled without confusable neighbours is a row of spellings** up to the first other
character, unless that is a `_` at the front. -/
theorem closes_encodeChars {k : List Char} (hk : k.IsChain Apart) (hmark : '$' ∉ k)
    (hhead : k.head? ≠ some '_') : closes (encodeChars k) = true := by
  induction k with
  | nil => rfl
  | cons c k ih =>
    have hapart := hk.rel_head?
    have hrow (h : k.head? ≠ some '_') : closes (encodeChars k) = true :=
      ih hk.tail (fun hmem => hmark (List.mem_cons_of_mem c hmem)) h
    obtain rfl | rfl | rfl | hc := encodeChar_cases c
    · rw [encodeChars_opening, closes_opening]
      exact hrow (fun hk' => absurd (hapart hk') (by decide))
    · have hcloses := hrow (fun hk' => absurd (hapart hk') (by decide))
      by_cases hmore : (encodeChars k).head? = some '_'
      · -- the run goes on with another closing parenthesis
        obtain ⟨k, rfl⟩ := exists_cons_of_closing hk hmore
        rw [encodeChars_closing] at hcloses
        rw [encodeChars_closing, encodeChars_closing, closes_comma, hcloses, Bool.or_true]
      · rw [encodeChars_closing, closes_closing hmore, hcloses]
    · rw [encodeChars_comma, closes_comma, hrow (fun hk' => absurd (hapart hk') (by decide)),
        Bool.true_or]
    · rw [encodeChars_of_ne hc]
      refine closes_of_not_isMark ?_ _
      have hne : c ≠ '_' := fun h => hhead (by rw [h]; rfl)
      have hne' : c ≠ '$' := fun h => hmark (h ▸ List.mem_cons_self)
      simp [isMark, hne, hne']

/-- Closing parentheses, each without its first mark and with the first mark of the next, are no row
of spellings. -/
theorem closes_dollar_encodeChars {k : List Char} (hk : (')' :: k).IsChain Apart) :
    closes ('$' :: encodeChars k) = false := by
  induction k with
  | nil => exact closes_dollar (by simp)
  | cons c k ih =>
    by_cases hmore : (encodeChars (c :: k)).head? = some '_'
    · obtain ⟨rest, hrest⟩ := exists_cons_of_closing hk hmore
      obtain ⟨rfl, rfl⟩ := List.cons.inj hrest
      rw [encodeChars_closing, closes_opening]
      exact ih hk.tail
    · exact closes_dollar hmore

/-- **A key without confusable neighbours comes back.** -/
theorem decodeChars_encodeChars {k : List Char} (hk : k.IsChain Apart) (hmark : '$' ∉ k) :
    decodeChars (encodeChars k) = k := by
  induction k with
  | nil => rfl
  | cons c k ih =>
    have hapart := hk.rel_head?
    have hmark' : '$' ∉ k := fun h => hmark (List.mem_cons_of_mem c h)
    have hback := ih hk.tail hmark'
    have hrow (h : k.head? ≠ some '_') : closes (encodeChars k) = true :=
      closes_encodeChars hk.tail hmark' h
    obtain rfl | rfl | rfl | hc := encodeChar_cases c
    · have hcloses := hrow (fun hk' => absurd (hapart hk') (by decide))
      rw [encodeChars_opening, decodeChars, if_pos hcloses, hback]
    · have hcloses := hrow (fun hk' => absurd (hapart hk') (by decide))
      by_cases hmore : (encodeChars k).head? = some '_'
      · -- a comma could be read here, but what it leaves is no row of spellings
        obtain ⟨k, rfl⟩ := exists_cons_of_closing hk hmore
        have hnot := closes_dollar_encodeChars hk.tail
        rw [encodeChars_closing] at hcloses hback
        rw [encodeChars_closing, encodeChars_closing, decodeChars, hnot,
          if_neg Bool.false_ne_true, if_pos hcloses, hback]
      · rw [encodeChars_closing, decodeChars, if_pos hcloses, hback]
        exact fun rest h => hmore (by rw [h]; rfl)
    · have hcloses := hrow (fun hk' => absurd (hapart hk') (by decide))
      rw [encodeChars_comma, decodeChars, if_pos hcloses, hback]
    · have hne : c ≠ '$' := fun h => hmark (h ▸ List.mem_cons_self)
      have hbare (h : c = '_') : (encodeChars k).head? ≠ some '$' :=
        head?_encodeChars_ne_dollar hmark' (fun hk' => absurd (hapart hk') (by subst h; decide))
      rw [encodeChars_of_ne hc, decodeChars, hback]
      · exact fun rest h => absurd h hne
      · exact fun rest h hrest => absurd (by rw [hrest]; rfl) (hbare h)
      · exact fun rest h hrest => absurd (by rw [hrest]; rfl) (hbare h)

/-- **Which keys come back from their identifiers**: among those without `$`, exactly those that
have no confusable neighbours. -/
theorem decode_encode_eq_iff {k : String} (h : '$' ∉ k.toList) :
    decode (encode k) = k ↔ ∀ pair ∈ confusable, ¬ pair <:+: k.toList := by
  have hdecode : (decode (encode k)).toList = decodeChars (encodeChars k.toList) := by
    rw [decode, encode, String.toList_ofList, String.toList_ofList]
  rw [← isChain_apart_iff, ← String.toList_inj, hdecode]
  constructor
  · intro hback
    rw [← hback]
    exact isChain_decodeChars (plain_encodeChars _)
  · exact fun hk => decodeChars_encodeChars hk h

/-- The key of a nested mapping comes back. That of a pair whose first type is a function does not:
the parenthesis behind the function's result and the comma run together. -/
theorem decode_encode_mapping :
    '$' ∉ "t_mapping(t_address,t_array(t_struct(Lock)7_storage)dyn_storage)".toList
    ∧ decode (encode "t_mapping(t_address,t_array(t_struct(Lock)7_storage)dyn_storage)")
      = "t_mapping(t_address,t_array(t_struct(Lock)7_storage)dyn_storage)"
    ∧ '$' ∉ "t_tuple(t_function_internal()returns(t_bool),t_bool)".toList
    ∧ decode (encode "t_tuple(t_function_internal()returns(t_bool),t_bool)")
      ≠ "t_tuple(t_function_internal()returns(t_bool),t_bool)" := by
  refine ⟨by decide, (decode_encode_eq_iff (by decide)).mpr (by decide +kernel), by decide,
    fun h => ?_⟩
  exact absurd ((decode_encode_eq_iff (by decide)).mp h) (by decide)

end SlotSafe.TypeKey
