import Mathlib.Data.List.Basic
import SlotSafe.TypeKey

/-!
# Type keys and the identifiers they come from

A type key is found by decoding an identifier, and a decoder that may cut the same run of `_` and
`$` in several ways could well send two identifiers to one key – two types would then share a label
without a word. It does not. **Every spelling that is decoded is spelled the same way again**, and
what is left alone is left alone by the encoder too, so encoding undoes decoding whatever the
decoder chose (`encodeChars_decodeChars`), and no key is reached twice.
-/

namespace SlotSafe.TypeKey

/-! ## The encoder -/

/-- Spells one character in another way, all over a text. -/
def respell (c : Char) (spelling : List Char) (s : List Char) : List Char :=
  s.flatMap (fun d => if d = c then spelling else [d])

@[simp] theorem encodeChars_nil : encodeChars [] = [] := rfl

@[simp] theorem encodeChars_cons (c : Char) (s : List Char) :
    encodeChars (c :: s) = encodeChar c ++ encodeChars s := List.flatMap_cons

/-- **Three replacements in a row are one.** No spelling holds a character that is replaced after
it. -/
theorem respell_respell_respell (s : List Char) :
    respell ')' ['_', '$'] (respell '(' ['$', '_'] (respell ',' ['_', '$', '_'] s))
      = encodeChars s := by
  induction s with
  | nil => rfl
  | cons c s ih =>
    rw [encodeChars_cons, ← ih]
    simp only [respell, List.flatMap_cons, List.flatMap_append]
    refine congrArg (· ++ _) ?_
    unfold encodeChar
    by_cases hcomma : c = ','
    · subst hcomma
      rfl
    by_cases hopening : c = '('
    · subst hopening
      rfl
    by_cases hclosing : c = ')'
    · subst hclosing
      rfl
    simp [hcomma, hopening, hclosing]

/-- A text without parentheses and commas, as the compiler's identifiers are. -/
def IsIdentifier (s : String) : Prop := '(' ∉ s.toList ∧ ')' ∉ s.toList ∧ ',' ∉ s.toList

instance (s : String) : Decidable (IsIdentifier s) := inferInstanceAs (Decidable (_ ∧ _ ∧ _))

/-- The encoder leaves an identifier as it is. -/
theorem encode_of_isIdentifier {s : String} (h : IsIdentifier s) : encode s = s := by
  obtain ⟨hopening, hclosing, hcomma⟩ := h
  have hchar : ∀ c ∈ s.toList, encodeChar c = [c] := by
    intro c hc
    have hne : c ≠ '(' ∧ c ≠ ')' ∧ c ≠ ',' :=
      ⟨ne_of_mem_of_not_mem hc hopening, ne_of_mem_of_not_mem hc hclosing,
        ne_of_mem_of_not_mem hc hcomma⟩
    rw [encodeChar, if_neg hne.1, if_neg hne.2.1, if_neg hne.2.2]
  have hchars : encodeChars s.toList = s.toList := by
    rw [encodeChars, List.flatMap_congr hchar, List.flatMap_singleton']
  rw [encode, hchars, String.ofList_toList]

/-! ## Encoding undoes decoding -/

/-- **Encoding undoes decoding**, by the decoder's own cases: a spelling that is decoded is what its
character is spelled as, and any other first character is kept on both sides. -/
theorem encodeChars_decodeChars (s : List Char) :
    encodeChars (decodeChars s) = encodeChars s := by
  induction s using decodeChars.induct with
  | case1 rest hcloses ih =>
    rw [decodeChars, if_pos hcloses, encodeChars_cons, ih]
    rfl
  | case2 rest hcloses ih =>
    rw [decodeChars, if_neg hcloses, encodeChars_cons, ih]
    rfl
  | case3 rest hcloses ih =>
    rw [decodeChars, if_pos hcloses, encodeChars_cons, ih]
    rfl
  | case4 rest hcomma hclosing ih =>
    -- the second mark of the comma's spelling is left for what follows
    rw [decodeChars, if_neg hcomma, if_pos hclosing, encodeChars_cons, ih]
    rfl
  | case5 rest hcomma hclosing ih =>
    rw [decodeChars, if_neg hcomma, if_neg hclosing, encodeChars_cons, ih]
    rfl
  | case6 rest hmark hcloses ih =>
    rw [decodeChars, if_pos hcloses, encodeChars_cons, ih]
    · rfl
    · exact hmark
  | case7 rest hmark hcloses ih =>
    rw [decodeChars, if_neg hcloses, encodeChars_cons, ih]
    · rfl
    · exact hmark
  | case8 c rest hopening hcomma hclosing ih =>
    rw [decodeChars, encodeChars_cons, ih, encodeChars_cons]
    · exact hopening
    · exact hcomma
    · exact hclosing
  | case9 => rfl

theorem encode_decode_eq (s : String) : encode (decode s) = encode s := by
  rw [encode, decode, String.toList_ofList, encodeChars_decodeChars]
  rfl

/-- Decoding is injective on identifiers, since encoding gives them back. -/
theorem eq_of_decode_eq {s t : String} (hs : IsIdentifier s) (ht : IsIdentifier t)
    (h : decode s = decode t) : s = t := by
  rw [← encode_of_isIdentifier hs, ← encode_decode_eq s, h, encode_decode_eq,
    encode_of_isIdentifier ht]

/-- **No two identifiers have one type key.** Encoding gives back what a text is encoded as, hence
gives back every identifier. -/
theorem encode_decode :
    (∀ s : String, encode (decode s) = encode s)
    ∧ (∀ s : String, IsIdentifier s → encode (decode s) = s)
    ∧ ∀ s t : String, IsIdentifier s → IsIdentifier t → decode s = decode t → s = t := by
  refine ⟨encode_decode_eq, fun s hs => ?_, fun s t => eq_of_decode_eq⟩
  rw [encode_decode_eq, encode_of_isIdentifier hs]

/-- Runs that differ in their last mark only keep apart, though the longer one is no row of
spellings to its end. -/
theorem encode_decode_runs :
    IsIdentifier "t_array$_t_uint8_$_$" ∧ IsIdentifier "t_array$_t_uint8_$_"
    ∧ encode (decode "t_array$_t_uint8_$_$") = "t_array$_t_uint8_$_$"
    ∧ decode "t_array$_t_uint8_$_$" ≠ decode "t_array$_t_uint8_$_" := by
  refine ⟨by decide, by decide, encode_decode.2.1 _ (by decide), fun h => ?_⟩
  exact absurd (encode_decode.2.2 _ _ (by decide) (by decide) h) (by decide)

end SlotSafe.TypeKey
