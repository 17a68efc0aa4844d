import Mathlib.Data.List.TakeWhile
import SlotSafe.Decimal.Integer

/-!
# Which texts write integers

An integer is written by a sign or none and a row of digits, with blanks before and after: the digits
are of any script, single underscores may stand between them, and there are at most 4300 of them. This
is said here by rules that know nothing of how a text is read (`IsInteger`), and **a text is read as an
integer exactly when these rules make it one** (`readInteger_eq_ok_iff`). In particular an integer is
read from its own digits, if there are few enough of them (`readInteger_toString`).

The rules build a row of digits at its end, as the reader goes through it. So what the reader has read
is always a row, or a row and an underscore behind it, or nothing yet (`IsBegun`).
-/

namespace SlotSafe

namespace Text

/-! ## Digits and blanks -/

theorem decimalDigit?_eq_none_iff {c : Char} :
    decimalDigit? c = none
      ↔ ∀ block ∈ decimalDigitBlocks, ¬(block.1 ≤ c.toNat ∧ c.toNat ≤ block.2) := by
  simp [decimalDigit?]

theorem decimalDigit?_lt {c : Char} {d : Nat} (h : decimalDigit? c = some d) : d < 10 := by
  obtain ⟨block, -, rfl⟩ := Option.map_eq_some_iff.mp h
  exact Nat.mod_lt _ (by decide)

/-- The ends of the blocks of blank characters. -/
def blankRanges : List (Nat × Nat) := [
  (0x09, 0x0d), (0x20, 0x20), (0x85, 0x85), (0xa0, 0xa0), (0x1680, 0x1680), (0x2000, 0x200a),
  (0x2028, 0x2028), (0x2029, 0x2029), (0x202f, 0x202f), (0x205f, 0x205f), (0x3000, 0x3000)]

theorem isBlank_iff {c : Char} :
    isBlank c = true ↔ ∃ range ∈ blankRanges, range.1 ≤ c.toNat ∧ c.toNat ≤ range.2 := by
  simp only [isBlank, blankRanges, Bool.or_eq_true, Bool.and_eq_true, decide_eq_true_eq, beq_iff_eq,
    List.mem_cons, List.not_mem_nil, or_false, exists_eq_or_imp, exists_eq_left]
  omega

/-- **A blank is no digit.** -/
theorem decimalDigit?_of_isBlank {c : Char} (h : isBlank c = true) : decimalDigit? c = none := by
  have hapart : ∀ range ∈ blankRanges, ∀ block ∈ decimalDigitBlocks,
      range.2 < block.1 ∨ block.2 < range.1 := by decide
  obtain ⟨range, hrange, hlow, hhigh⟩ := isBlank_iff.mp h
  refine decimalDigit?_eq_none_iff.mpr fun block hblock => ?_
  have hblock := hapart range hrange block hblock
  omega

end Text

namespace Decimal

open Text

/-- The digits that are read in base ten are the decimal digits. -/
theorem digitIn?_ten (c : Char) : digitIn? 10 c = decimalDigit? c := by
  unfold digitIn?
  cases hdigit : decimalDigit? c with
  | some d => simp [decimalDigit?_lt hdigit]
  | none =>
    have hascii := decimalDigit?_eq_none_iff.mp hdigit (0x30, 0x39) (by decide)
    unfold hexValue?
    simp only [Option.none_or]
    split
    · next h => exact absurd h hascii
    · split
      · simp
      · split <;> simp

/-! ## The rules -/

/-- **A row of digits**, with the number that it writes and the count of the digits: single underscores
may stand between them. -/
inductive IsRow : List Char → (value count : Nat) → Prop
  | digit {c : Char} {d : Nat} (hc : decimalDigit? c = some d) : IsRow [c] d 1
  | next {s : List Char} {value count : Nat} {c : Char} {d : Nat} (row : IsRow s value count)
    (hc : decimalDigit? c = some d) : IsRow (s ++ [c]) (value * 10 + d) (count + 1)
  | underscore {s : List Char} {value count : Nat} {c : Char} {d : Nat} (row : IsRow s value count)
    (hc : decimalDigit? c = some d) : IsRow (s ++ ['_', c]) (value * 10 + d) (count + 1)

/-- **A sign or none**, with the factor that it stands for. -/
inductive IsSign : List Char → Int → Prop
  | none : IsSign [] 1
  | plus : IsSign ['+'] 1
  | minus : IsSign ['-'] (-1)

/-- **A text that writes an integer**: blanks, a sign or none, a row of not too many digits, and blanks
again. -/
inductive IsInteger : List Char → Int → Prop
  | written {before sign row after : List Char} {factor : Int} {value count : Nat}
    (before_blank : ∀ c ∈ before, isBlank c = true) (hsign : IsSign sign factor)
    (hrow : IsRow row value count) (limit : count ≤ digitLimit)
    (after_blank : ∀ c ∈ after, isBlank c = true) :
    IsInteger (before ++ (sign ++ (row ++ after))) (factor * value)

/-! ## Rows are read -/

variable {s : List Char} {value count : Nat}

theorem IsRow.exists_cons (h : IsRow s value count) :
    ∃ c rest d, s = c :: rest ∧ decimalDigit? c = some d := by
  induction h with
  | digit hc => exact ⟨_, _, _, rfl, hc⟩
  | next _ _ ih =>
    obtain ⟨c, rest, d, rfl, hc⟩ := ih
    exact ⟨c, _, d, rfl, hc⟩
  | underscore _ _ ih =>
    obtain ⟨c, rest, d, rfl, hc⟩ := ih
    exact ⟨c, _, d, rfl, hc⟩

theorem digitRun_digit {c : Char} {d : Nat} (hc : decimalDigit? c = some d) (value count : Nat)
    (afterDigit : Bool) (rest : List Char) :
    digitRun 10 value count afterDigit (c :: rest)
      = digitRun 10 (value * 10 + d) (count + 1) true rest := by
  rw [digitRun, digitIn?_ten, hc]

theorem digitRun_underscore (value count : Nat) (rest : List Char) :
    digitRun 10 value count true ('_' :: rest) = digitRun 10 value count false rest := by
  have hnone : decimalDigit? '_' = none := by decide
  rw [digitRun, digitIn?_ten, hnone]
  rfl

/-- **The reader passes a row of digits** and goes on behind it. -/
theorem IsRow.digitRun_append (h : IsRow s value count) (rest : List Char) :
    digitRun 10 0 0 false (s ++ rest) = digitRun 10 value count true rest := by
  induction h generalizing rest with
  | digit hc => rw [List.singleton_append, digitRun_digit hc, Nat.zero_mul, Nat.zero_add]
  | next _ hc ih => rw [List.append_assoc, ih, List.singleton_append, digitRun_digit hc]
  | underscore _ hc ih =>
    rw [List.append_assoc, ih, List.cons_append, List.singleton_append, digitRun_underscore,
      digitRun_digit hc]

/-- Before blanks a row of digits ends. -/
theorem digitRun_of_blank {rest : List Char} (h : ∀ c ∈ rest, isBlank c = true) (value count : Nat) :
    digitRun 10 value count true rest = some (value, count, rest) := by
  cases rest with
  | nil => rfl
  | cons c rest =>
    obtain ⟨hc, -⟩ := List.forall_mem_cons.mp h
    have hunderscore : c ≠ '_' := by
      rintro rfl
      exact absurd hc (by decide)
    rw [digitRun, digitIn?_ten, decimalDigit?_of_isBlank hc]
    simp [hunderscore]

/-! ## What is read is a row -/

/-- **What has been read of a row of digits**: nothing yet, a row, or a row and an underscore. The truth
value tells whether a digit stands at its end. -/
inductive IsBegun : List Char → (value count : Nat) → Bool → Prop
  | nothing : IsBegun [] 0 0 false
  | row {s : List Char} {value count : Nat} (h : IsRow s value count) : IsBegun s value count true
  | underscore {s : List Char} {value count : Nat} (h : IsRow s value count) :
    IsBegun (s ++ ['_']) value count false

theorem IsBegun.isRow_digit {afterDigit : Bool} (h : IsBegun s value count afterDigit) {c : Char}
    {d : Nat} (hc : decimalDigit? c = some d) : IsRow (s ++ [c]) (value * 10 + d) (count + 1) := by
  cases h with
  | nothing => simpa using IsRow.digit hc
  | row h => exact .next h hc
  | underscore h =>
    rw [List.append_assoc]
    exact .underscore h hc

/-- **What the reader takes for a row of digits is one.** -/
theorem IsBegun.exists_isRow {begun rest : List Char} {afterDigit : Bool} {value' count' : Nat}
    (hbegun : IsBegun begun value count afterDigit)
    (h : digitRun 10 value count afterDigit s = some (value', count', rest)) :
    ∃ more, s = more ++ rest ∧ IsRow (begun ++ more) value' count' := by
  induction s generalizing begun value count afterDigit with
  | nil =>
    rw [digitRun] at h
    cases hbegun with
    | row hrow =>
      cases h
      exact ⟨[], rfl, by rwa [List.append_nil]⟩
    | nothing => cases h
    | underscore _ => cases h
  | cons c s ih =>
    cases hc : decimalDigit? c with
    | some d =>
      rw [digitRun_digit hc] at h
      obtain ⟨more, rfl, hrow⟩ := ih (.row (hbegun.isRow_digit hc)) h
      refine ⟨c :: more, rfl, ?_⟩
      rwa [List.append_assoc, List.singleton_append] at hrow
    | none =>
      rw [digitRun, digitIn?_ten, hc] at h
      cases hbegun with
      | nothing => cases h
      | underscore _ => cases h
      | row hrow =>
        simp only [Bool.not_true, Bool.false_eq_true, if_false] at h
        split at h
        · next hunderscore =>
          obtain ⟨more, rfl, hmore⟩ := ih (.underscore hrow) h
          refine ⟨c :: more, rfl, ?_⟩
          rwa [List.append_assoc, ← hunderscore, List.singleton_append] at hmore
        · cases h
          exact ⟨[], rfl, by rwa [List.append_nil]⟩

/-! ## Signs -/

/-- The factor that the reader takes a sign for. -/
def factorOf (negative : Bool) : Int := if negative then -1 else 1

theorem exists_isSign (s : List Char) :
    ∃ before, IsSign before (factorOf (sign s).1) ∧ s = before ++ (sign s).2 := by
  unfold sign
  split
  · exact ⟨['-'], .minus, rfl⟩
  · exact ⟨['+'], .plus, rfl⟩
  · exact ⟨[], .none, rfl⟩

/-- **The reader takes a sign from a row of digits**, and nothing of the row. -/
theorem IsSign.exists_sign_append {before : List Char} {factor : Int} (h : IsSign before factor)
    (hrow : IsRow s value count) (rest : List Char) :
    ∃ negative, sign (before ++ (s ++ rest)) = (negative, s ++ rest) ∧ factorOf negative = factor := by
  cases h with
  | plus => exact ⟨false, rfl, rfl⟩
  | minus => exact ⟨true, rfl, rfl⟩
  | none =>
    obtain ⟨c, row, d, rfl, hc⟩ := hrow.exists_cons
    refine ⟨false, ?_, rfl⟩
    rw [List.nil_append, List.cons_append]
    unfold sign
    split
    · next h =>
      obtain ⟨rfl, -⟩ := List.cons.inj h
      cases hc
    · next h =>
      obtain ⟨rfl, -⟩ := List.cons.inj h
      cases hc
    · rfl

/-- Neither a sign nor a row of digits begins with a blank. -/
theorem IsSign.dropWhile_append {before : List Char} {factor : Int} (h : IsSign before factor)
    (hrow : IsRow s value count) (rest : List Char) :
    (before ++ (s ++ rest)).dropWhile isBlank = before ++ (s ++ rest) := by
  cases h with
  | plus => rfl
  | minus => rfl
  | none =>
    obtain ⟨c, row, d, rfl, hc⟩ := hrow.exists_cons
    have hblank : isBlank c = false := by
      refine eq_false_of_ne_true fun hblank => ?_
      rw [decimalDigit?_of_isBlank hblank] at hc
      cases hc
    rw [List.nil_append, List.cons_append, List.dropWhile_cons, hblank]
    rfl

/-! ## Integers -/

theorem passMark_ten (s : List Char) : passMark 10 s = s := by
  unfold passMark
  split
  · exact if_neg nofun
  · rfl

theorem ite_neg_eq_factorOf (negative : Bool) (value : Nat) :
    (if negative then -(value : Int) else value) = factorOf negative * value := by
  cases negative <;> simp [factorOf]

/-- **A text is read as an integer exactly when it writes that integer.** -/
theorem readInteger_eq_ok_iff {text : List Char} {n : Int} :
    readInteger text = .ok n ↔ IsInteger text n := by
  constructor
  · intro h
    unfold readInteger readIntegerIn at h
    simp only [passMark_ten] at h
    obtain ⟨before, hsign, hsplit⟩ := exists_isSign (text.dropWhile isBlank)
    split at h
    · cases h
    · next value count after hrun =>
      obtain ⟨row, hbody, hrow⟩ := IsBegun.nothing.exists_isRow hrun
      split at h
      · cases h
      · next hlimit =>
        split at h
        · next hafter =>
          have htext : text = text.takeWhile isBlank ++ (before ++ (row ++ after)) := by
            rw [← hbody, ← hsplit, List.takeWhile_append_dropWhile]
          rw [ite_neg_eq_factorOf] at h
          obtain rfl := Except.ok.inj h
          have hbefore : ∀ c ∈ text.takeWhile isBlank, isBlank c = true :=
            List.all_eq_true.mp List.all_takeWhile
          have hwritten := IsInteger.written hbefore hsign hrow (by simpa using hlimit)
            (List.all_eq_true.mp hafter)
          rwa [List.nil_append, ← htext] at hwritten
        · cases h
  · rintro ⟨hbefore, hsign, hrow, hlimit, hafter⟩
    obtain ⟨negative, hnegative, rfl⟩ := hsign.exists_sign_append hrow _
    unfold readInteger readIntegerIn
    rw [List.dropWhile_append_of_pos hbefore, hsign.dropWhile_append hrow, hnegative]
    simp only [passMark_ten, hrow.digitRun_append, digitRun_of_blank hafter]
    rw [if_neg (by simpa using hlimit), if_pos (List.all_eq_true.mpr hafter), ite_neg_eq_factorOf]

/-- Digits of two scripts with an underscore between them, a sign in front and blanks around. -/
example : IsInteger "\u00a0+1_٢\n".toList 12 := readInteger_eq_ok_iff.mp rfl

/-! ## Integers in their own digits -/

theorem decimalDigit?_digitChar {d : Nat} (h : d < 10) : decimalDigit? d.digitChar = some d := by
  have hall : ∀ d < 10, decimalDigit? d.digitChar = some d := by decide
  exact hall d h

/-- **The digits of a number are a row that writes it.** -/
theorem isRow_toDigits (n : Nat) : IsRow (Nat.toDigits 10 n) n (Nat.toDigits 10 n).length := by
  induction n using Nat.strongRecOn with
  | _ n ih =>
    obtain hn | hn := Nat.lt_or_ge n 10
    · rw [Nat.toDigits_of_lt_base hn]
      exact .digit (decimalDigit?_digitChar hn)
    · have hrow := IsRow.next (ih (n / 10) (by omega))
        (decimalDigit?_digitChar (Nat.mod_lt n (by decide)))
      rw [Nat.div_add_mod'] at hrow
      rw [Nat.toDigits_of_base_le (by decide) hn, List.length_append]
      exact hrow

/-- The integers that may be written are those of not too many digits. -/
theorem isWritable_iff {n : Int} :
    isWritable n = true ↔ (Nat.toDigits 10 n.natAbs).length ≤ digitLimit := by
  -- said of any limit, since ten to the power of the real one is not to be computed
  have hlength {limit : Nat} (hlimit : 0 < limit) :
      n.natAbs < Nat.pow 10 limit ↔ (Nat.toDigits 10 n.natAbs).length ≤ limit :=
    (Nat.length_toDigits_le_iff (by decide) hlimit).symm
  unfold isWritable
  rw [decide_eq_true_eq]
  exact hlength (by decide)

/-- **An integer is written by its digits**, with a sign in front if it is negative. -/
theorem isInteger_toString {n : Int} (h : isWritable n = true) : IsInteger (toString n).toList n := by
  have hblank : ∀ c ∈ ([] : List Char), isBlank c = true := List.forall_mem_nil _
  have hwritten {before : List Char} {factor : Int} (hsign : IsSign before factor) :=
    IsInteger.written hblank hsign (isRow_toDigits n.natAbs) (isWritable_iff.mp h) hblank
  cases n with
  | ofNat k =>
    have hdigits : (toString (Int.ofNat k)).toList = Nat.toDigits 10 k := Nat.toList_repr
    rw [hdigits]
    simpa using hwritten .none
  | negSucc k =>
    have hdigits : (toString (Int.negSucc k)).toList = '-' :: Nat.toDigits 10 (k + 1) := by
      rw [← Nat.toList_repr]
      exact String.toList_append
    have hminus := hwritten .minus
    rw [Int.natAbs_negSucc] at hminus
    rw [hdigits, Int.negSucc_eq]
    simpa using hminus

theorem readInteger_toString {n : Int} (h : isWritable n = true) :
    readInteger (toString n).toList = .ok n :=
  readInteger_eq_ok_iff.mpr (isInteger_toString h)

end Decimal

end SlotSafe
