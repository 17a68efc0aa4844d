import Mathlib.Logic.Relation
import SlotSafe.Proofs.FoldedTexts
import SlotSafe.Proofs.Success
import SlotSafe.Yaml.Token.Lexer

/-!
# Texts and signs as tokens

Between two tokens of a block the lexer is in one of few states: no flow list or map is open, and
what is left starts with a character that starts a token. This module names those states
(`Lexer.inBlocks`) and says how one leads to another over a single token (`Lexer.Next`): over a sign
for an item, a key or a value, over empty brackets, and over a text.

A text stands in one of two places. As a key it is followed by its colon on the same line, and the
place where it starts is still remembered there (`step_key`). Anywhere else it is followed by the
next line, which is indented no deeper than what holds the text: the lexer reads it up to there, the
key that might have started with it is forgotten, and the blocks that the next line ends are closed
(`leads_text`).
-/

namespace SlotSafe.Yaml

/-! ## Open blocks -/

/-- The columns of the block lists and maps that are open, and the tokens found, the last one first.
-/
structure Blocks where
  indent : Int
  outer : List Int
  tokens : List Token

namespace Blocks

/-- Adds tokens in their order. -/
def add (b : Blocks) (tokens : List Token) : Blocks :=
  { b with tokens := tokens.reverse ++ b.tokens }

/-- Starts a block at a column, unless the innermost one stands there. -/
def openAt (b : Blocks) (column : Nat) (start : Token) : Blocks :=
  if b.indent < column then ⟨column, b.indent :: b.outer, start :: b.tokens⟩ else b

/-- Ends the blocks that are indented further than a column. -/
def close (b : Blocks) (column : Nat) : Blocks :=
  let (indent, outer, tokens) := Lexer.closeBlocks column b.indent b.outer b.tokens
  ⟨indent, outer, tokens⟩

variable {b : Blocks} {column : Nat}

theorem indent_add (b : Blocks) (tokens : List Token) : (b.add tokens).indent = b.indent :=
  rfl

theorem add_add (b : Blocks) (s t : List Token) : (b.add s).add t = b.add (s ++ t) := by
  simp [add]

theorem openAt_of_le (h : column ≤ b.indent) (start : Token) : b.openAt column start = b :=
  if_neg (Int.not_lt.mpr h)

theorem openAt_of_lt (h : b.indent < column) (start : Token) :
    b.openAt column start = ⟨column, b.indent :: b.outer, start :: b.tokens⟩ := if_pos h

theorem indent_openAt (h : b.indent ≤ column) (start : Token) :
    (b.openAt column start).indent = column := by
  unfold openAt
  split
  · rfl
  · omega

theorem indent_add_openAt (h : b.indent ≤ column) (start : Token) (tokens : List Token) :
    ((b.openAt column start).add tokens).indent = column := indent_openAt h start

theorem close_of_le (h : b.indent ≤ column) : b.close column = b := by
  obtain ⟨indent, _ | ⟨out, outer⟩, tokens⟩ := b
  all_goals
    unfold close Lexer.closeBlocks
    rw [if_neg (Int.not_lt.mpr h)]

/-- What stands at the column of the innermost block starts none. -/
theorem openAt_add_openAt (h : b.indent ≤ column) (start : Token) (tokens : List Token) :
    ((b.openAt column start).add tokens).openAt column start = (b.openAt column start).add tokens :=
  openAt_of_le (Int.le_of_eq (indent_add_openAt h start tokens).symm) start

/-- **A block that has been started is ended where the text goes back to what holds it.** -/
theorem close_add_openAt (hopen : b.indent < column) {k : Nat} (hk : k ≤ b.indent) (start : Token)
    (tokens : List Token) :
    ((b.openAt column start).add tokens).close k
      = (b.add (start :: (tokens ++ [.blockEnd]))).close k := by
  rw [openAt_of_lt hopen]
  unfold close add
  simp only
  rw [Lexer.closeBlocks, if_pos (by omega)]
  simp

end Blocks

/-! ## Between two tokens -/

namespace Lexer

/-- The lexer outside all flow lists and maps. -/
def inBlocks (c : Cursor) (b : Blocks) (keyAllowed : Bool) (possible : Option PossibleKey) : Lexer
    where
  cursor := c
  tokens := b.tokens
  depth := 0
  indent := b.indent
  outer := b.outer
  keyAllowed := keyAllowed
  possible := possible
  possibleOutside := []

/-- **What is done after a token before the next one is looked at.** -/
def Settles (l t : Lexer) : Prop := ∃ fresh, l.forgetStale = .ok fresh ∧ fresh.settle = .ok t

/-- **From one place between two tokens to the next**, over a token that takes characters. -/
def Next (s t : Lexer) : Prop :=
  ∃ l, s.step = .ok (l, false) ∧ l.Settles t ∧ t.cursor.rest.length < s.cursor.rest.length

/-- From one place between two tokens to a later one. -/
abbrev Leads : Lexer → Lexer → Prop := Relation.ReflTransGen Next

/-- **A run over a text that it gets to the end of** finds the tokens that are known there. -/
theorem run_of_leads {l s t : Lexer} (hl : l.Settles s) (hst : s.Leads t)
    (ht : t.cursor.rest = []) {last : Lexer}
    (hlast : t.finish = .ok last) {fuel : Nat} (hfuel : s.cursor.rest.length < fuel) :
    run none fuel l = last.tokens.reverse := by
  induction hst using Relation.ReflTransGen.head_induction_on generalizing l fuel with
  | refl =>
    obtain ⟨fresh, hfresh, hsettle⟩ := hl
    obtain ⟨fuel, rfl⟩ := Nat.exists_eq_succ_of_ne_zero (Nat.ne_of_gt (Nat.zero_lt_of_lt hfuel))
    have hstep : t.step = .ok (last, true) := by
      unfold step
      simp only [ht, hlast]
      rfl
    rw [run, hfresh]
    simp only [bind, Except.bind, hsettle, hstep]
  | @head s u hsu hut ih =>
    obtain ⟨fresh, hfresh, hsettle⟩ := hl
    obtain ⟨next, hstep, hnext, hless⟩ := hsu
    obtain ⟨fuel, rfl⟩ := Nat.exists_eq_succ_of_ne_zero (Nat.ne_of_gt (Nat.zero_lt_of_lt hfuel))
    rw [run, hfresh]
    simp only [bind, Except.bind, hsettle, hstep]
    exact ih hnext (by omega)

variable {c : Cursor} {b : Blocks} {keyAllowed : Bool} {possible : Option PossibleKey}

/-! ### Keys that may have started -/

/-- Keys that are not required are forgotten without harm, and at the latest in the next line. -/
theorem exists_forgetStale (c : Cursor) (b : Blocks) (keyAllowed : Bool)
    (h : ∀ k ∈ possible, k.required = false) :
    ∃ kept, (inBlocks c b keyAllowed possible).forgetStale = .ok (inBlocks c b keyAllowed kept)
      ∧ ∀ k ∈ kept, k ∈ possible ∧ k.line = c.line := by
  cases possible with
  | none => exact ⟨none, rfl, fun _ hk => nomatch hk⟩
  | some k =>
    have hrequired := h k rfl
    have hfresh : (inBlocks c b keyAllowed (some k)).freshKey (some k)
        = .ok (if (inBlocks c b keyAllowed (some k)).isStale k then none else some k) := by
      simp only [freshKey, hrequired]
      split <;> rfl
    refine ⟨if (inBlocks c b keyAllowed (some k)).isStale k then none else some k, ?_, ?_⟩
    · show ((inBlocks c b keyAllowed (some k)).freshKey (some k) >>= _) = _
      rw [hfresh]
      rfl
    · intro k' hk'
      split at hk'
      · cases hk'
      · next hstale =>
        obtain rfl := Option.some.inj hk'
        simp only [isStale, Bool.or_eq_true, not_or, bne_iff_ne, not_not] at hstale
        exact ⟨rfl, hstale.1⟩

theorem forgetStale_of_fresh {k : PossibleKey} (hline : k.line = c.line)
    (hindex : c.index ≤ k.index + 1024) :
    (inBlocks c b keyAllowed (some k)).forgetStale = .ok (inBlocks c b keyAllowed (some k)) := by
  have hstale : (inBlocks c b keyAllowed (some k)).isStale k = false := by
    simp only [isStale, Bool.or_eq_false_iff, bne_eq_false_iff_eq, decide_eq_false_iff_not]
    exact ⟨hline, by show ¬1024 < c.index - k.index; omega⟩
  have hfresh : (inBlocks c b keyAllowed (some k)).freshKey (some k) = .ok (some k) := by
    simp only [freshKey, hstale, Bool.false_eq_true, if_false]
  show ((inBlocks c b keyAllowed (some k)).freshKey (some k) >>= _) = _
  rw [hfresh]
  rfl

/-! ### Blanks and line ends -/

/-- What is left starts with a character that starts a token, or nothing is left. -/
def StartsToken (s : List Char) : Prop :=
  ∀ x ∈ s.head?, isPlainChar x = true ∧ x ≠ ' ' ∧ x ≠ '#'

variable {next : List Char}

theorem StartsToken.isSpace (h : StartsToken next) : ∀ x ∈ next.head?, isSpace x = false :=
  fun x hx => isSpace_of_isPlainChar (h x hx).1 (h x hx).2.1

theorem StartsToken.gap (h : StartsToken next) : gap false next = (0, false) := by
  cases next with
  | nil => rfl
  | cons x rest =>
    obtain ⟨hplain, hblank, hhash⟩ := h x rfl
    rw [Lexer.gap, isBreak_of_isPlainChar hplain, beq_eq_false_iff_ne.mpr hblank,
      beq_eq_false_iff_ne.mpr hhash]
    rfl

theorem gap_blanks (h : StartsToken next) (n : Nat) :
    gap false (List.replicate n ' ' ++ next) = (n, false) := by
  induction n with
  | zero => exact h.gap
  | succ n ih =>
    rw [List.replicate_succ, List.cons_append, Lexer.gap, ih]
    rfl

theorem gap_newLine (h : StartsToken next) (k : Nat) :
    gap false (newLine k ++ next) = ((newLine k).length, true) := by
  rw [newLine, List.cons_append, Lexer.gap, gap_blanks h k, List.length_cons, List.length_replicate]
  rfl

theorem StartsToken.sees (h : StartsToken c.rest) : c.sees '\ufeff' = false :=
  beq_eq_false_iff_ne.mpr fun hmark => absurd (h _ hmark).1 (by decide)

theorem passGap_here (l : Lexer) (hnext : StartsToken l.cursor.rest) : l.passGap = l := by
  unfold passGap
  simp only [hnext.sees, Bool.false_eq_true, and_false, if_false, hnext.gap, Bool.false_and]
  rfl

theorem passGap_blank (hrest : c.rest = ' ' :: next) (hnext : StartsToken next) :
    (inBlocks c b keyAllowed possible).passGap
      = inBlocks (c.advance 1) b keyAllowed possible := by
  have hgap : gap false c.rest = (1, false) := by
    rw [hrest]
    exact gap_blanks hnext 1
  have hmark : c.sees '\ufeff' = false := by
    unfold Cursor.sees Cursor.peek
    rw [hrest]
    rfl
  unfold passGap inBlocks
  simp only [hmark, Bool.false_eq_true, and_false, if_false, hgap, Bool.false_and]
  rfl

theorem passGap_newLine {k : Nat} (hrest : c.rest = newLine k ++ next) (hnext : StartsToken next) :
    (inBlocks c b keyAllowed possible).passGap
      = inBlocks (c.advance (newLine k).length) b true possible := by
  have hgap : gap false c.rest = ((newLine k).length, true) := by rw [hrest, gap_newLine hnext]
  have hmark : c.sees '\ufeff' = false := by
    unfold Cursor.sees Cursor.peek
    rw [hrest]
    rfl
  unfold passGap inBlocks
  simp only [hmark, Bool.false_eq_true, and_false, if_false, hgap]
  rfl

theorem settle_of_passGap {c' : Cursor} {keyAllowed' : Bool} {kept : Option PossibleKey}
    (hgap : (inBlocks c b keyAllowed possible).passGap = inBlocks c' b keyAllowed' possible)
    (hkept : (inBlocks c' b keyAllowed' possible).forgetStale
      = .ok (inBlocks c' b keyAllowed' kept)) :
    (inBlocks c b keyAllowed possible).settle
      = .ok (inBlocks c' (b.close c'.column) keyAllowed' kept) := by
  unfold settle
  rw [hgap, hkept]
  rfl

/-- **The next line** leaves no key behind, and ends the blocks that are indented further. -/
theorem settles_newLine {k : Nat} (hpossible : ∀ k ∈ possible, k.required = false)
    (hrest : c.rest = newLine k ++ next) (hnext : StartsToken next) :
    (inBlocks c b keyAllowed possible).Settles
      (inBlocks (c.advance (newLine k).length) (b.close k) true none) := by
  obtain ⟨kept, hkept, hfrom⟩ := exists_forgetStale c b keyAllowed hpossible
  obtain ⟨left, hleft, hnone⟩ := exists_forgetStale (c.advance (newLine k).length) b true
    fun k hk => hpossible k (hfrom k hk).1
  have hpass := Cursor.advance_newLine hrest
  obtain rfl : left = none := by
    rw [Option.eq_none_iff_forall_not_mem]
    intro key hkey
    obtain ⟨hmem, hline⟩ := hnone key hkey
    rw [hpass, (hfrom key hmem).2] at hline
    exact absurd hline (Nat.ne_of_lt (Nat.lt_succ_self c.line))
  refine ⟨_, hkept, ?_⟩
  rw [settle_of_passGap (passGap_newLine hrest hnext) hleft, hpass]

/-- At the start of a token, no key being left from its line. -/
theorem settles_here (hpossible : ∀ k ∈ possible, k.required = false ∧ k.line ≠ c.line)
    (hnext : StartsToken c.rest) :
    (inBlocks c b keyAllowed possible).Settles
      (inBlocks c (b.close c.column) keyAllowed none) := by
  obtain ⟨kept, hkept, hfrom⟩ := exists_forgetStale c b keyAllowed
    fun k hk => (hpossible k hk).1
  obtain rfl : kept = none := by
    rw [Option.eq_none_iff_forall_not_mem]
    intro key hkey
    exact (hpossible key (hfrom key hkey).1).2 (hfrom key hkey).2
  exact ⟨_, hkept, settle_of_passGap (passGap_here _ hnext) rfl⟩

/-- A blank after a sign. -/
theorem settles_blank (hrest : c.rest = ' ' :: next) (hnext : StartsToken next)
    (hcolumn : b.indent ≤ (c.advance 1).column) :
    (inBlocks c b keyAllowed none).Settles (inBlocks (c.advance 1) b keyAllowed none) := by
  refine ⟨inBlocks c b keyAllowed none, rfl, ?_⟩
  rw [settle_of_passGap (passGap_blank hrest hnext) rfl, Blocks.close_of_le hcolumn]

/-- Where a key may have started that can still be one. -/
theorem settles_key {k : PossibleKey} (hline : k.line = c.line) (hindex : c.index ≤ k.index + 1024)
    (hnext : StartsToken c.rest) (hcolumn : b.indent ≤ c.column) :
    (inBlocks c b keyAllowed (some k)).Settles (inBlocks c b keyAllowed (some k)) := by
  refine ⟨_, forgetStale_of_fresh hline hindex, ?_⟩
  rw [settle_of_passGap (passGap_here _ hnext) (forgetStale_of_fresh hline hindex),
    Blocks.close_of_le hcolumn]

/-- What starts a line at a column, and is no separator of documents. -/
structure StartsLine (k : Nat) (next : List Char) : Prop where
  token : StartsToken next
  noSeparator : atSeparator (List.replicate k ' ' ++ next) = false

/-- To the line that starts at a column with the given characters, the blocks being ended that are
indented further. -/
def LeadsToLine (s : Lexer) (b : Blocks) (k : Nat) (next : List Char) : Prop :=
  ∃ c, c.rest = next ∧ c.column = k ∧ s.Leads (inBlocks c (b.close k) true none)

/-! ### Signs -/

/-- Where a possible key starts. -/
def keyAt (c : Cursor) (b : Blocks) : PossibleKey where
  tokensBefore := b.tokens.length
  required := decide (b.indent = (c.column : Int))
  index := c.index
  line := c.line
  column := c.column

theorem rememberKey_inBlocks :
    (inBlocks c b keyAllowed none).rememberKey
      = .ok (inBlocks c b keyAllowed (if keyAllowed then some (keyAt c b) else none)) := by
  cases keyAllowed <;> rfl

theorem startBlock_inBlocks (start : Token) :
    (inBlocks c b true none).startBlock start
      = .ok (inBlocks c (b.openAt c.column start) true none) := by
  unfold startBlock Blocks.openAt opensBlock inBlocks
  simp only [inFlow, bne_self_eq_false, Bool.false_eq_true, if_false, Bool.not_true,
    decide_eq_true_eq]
  split <;> rfl

theorem step_of_fetch {x : Char} {rest : List Char} (hrest : c.rest = x :: rest) {l : Lexer}
    (hfetch : (inBlocks c b keyAllowed possible).fetch x rest = .ok l) :
    (inBlocks c b keyAllowed possible).step = .ok (l, false) := by
  have hcursor : (inBlocks c b keyAllowed possible).cursor.rest = x :: rest := hrest
  unfold step
  rw [hcursor]
  simp only [hfetch]
  rfl

theorem step_item (hrest : c.rest = '-' :: ' ' :: next) :
    (inBlocks c b true none).step
      = .ok (inBlocks (c.advance 1) ((b.openAt c.column .blockSequenceStart).add [.blockEntry])
        true none, false) := by
  refine step_of_fetch hrest ?_
  have hfetch : (inBlocks c b true none).fetch '-' (' ' :: next)
      = (inBlocks c b true none).fetchBlockEntry := by
    simp [fetch, atMark, atSpace, isSpace]
  rw [hfetch, fetchBlockEntry, startBlock_inBlocks]
  rfl

theorem step_questionMark (hrest : c.rest = '?' :: ' ' :: next) :
    (inBlocks c b true none).step
      = .ok (inBlocks (c.advance 1) ((b.openAt c.column .blockMappingStart).add [.key])
        true none, false) := by
  refine step_of_fetch hrest ?_
  have hfetch : (inBlocks c b true none).fetch '?' (' ' :: next)
      = (inBlocks c b true none).fetchKey := by
    simp [fetch, atMark, atSpace, isSpace]
  rw [hfetch, fetchKey, startBlock_inBlocks]
  rfl

/-- The colon after a key that stands behind a question mark. -/
theorem step_colon (hrest : c.rest = ':' :: ' ' :: next) :
    (inBlocks c b true none).step
      = .ok (inBlocks (c.advance 1) ((b.openAt c.column .blockMappingStart).add [.value])
        true none, false) := by
  refine step_of_fetch hrest ?_
  have hfetch : (inBlocks c b true none).fetch ':' (' ' :: next)
      = (inBlocks c b true none).fetchValue := by
    simp [fetch, atMark, atSpace, isSpace]
  rw [hfetch]
  show ((inBlocks c b true none).startBlock .blockMappingStart >>= _) = _
  rw [startBlock_inBlocks]
  rfl

theorem emitAfter_all (c : Cursor) (t : Token) (later tokens : List Token) (indent : Int)
    (outer : List Int) :
    (inBlocks c ⟨indent, outer, later ++ tokens⟩ keyAllowed possible).emitAfter tokens.length t
      = inBlocks c ⟨indent, outer, later ++ t :: tokens⟩ keyAllowed possible := by
  simp [emitAfter, inBlocks]

/-- The start of a key, and of a map if it is the first, stand in front of what was read since. -/
theorem insertKey_inBlocks (c' : Cursor) (token : Token) :
    (inBlocks c' (b.add [token]) false (some (keyAt c b))).insertKey (keyAt c b)
      = inBlocks c' ((b.openAt c.column .blockMappingStart).add [.key, token]) false none := by
  have hinsert : (inBlocks c' (b.add [token]) false (some (keyAt c b))).insertKey (keyAt c b)
      = let l := (inBlocks c' (b.add [token]) false none).emitAfter b.tokens.length .key
        if !l.inFlow && l.opensBlock c.column then
          (l.openBlock c.column).emitAfter b.tokens.length .blockMappingStart
        else l := rfl
  have hkey : (inBlocks c' (b.add [token]) false none).emitAfter b.tokens.length .key
      = inBlocks c' (b.add [.key, token]) false none :=
    emitAfter_all c' .key [token] b.tokens b.indent b.outer
  rw [hinsert, hkey]
  unfold Blocks.openAt
  by_cases hopen : b.indent < c.column
  · have hopens : (inBlocks c' (b.add [.key, token]) false none).opensBlock c.column = true :=
      decide_eq_true hopen
    simp only [hopens, if_pos hopen]
    exact emitAfter_all c' .blockMappingStart [token, .key] b.tokens c.column (b.indent :: b.outer)
  · have hopens : (inBlocks c' (b.add [.key, token]) false none).opensBlock c.column = false :=
      decide_eq_false hopen
    simp only [hopens, if_neg hopen, Bool.and_false, Bool.false_eq_true, if_false]

/-- **The colon after a key on its line** makes it a key. -/
theorem step_keyColon {c' : Cursor} {rest : List Char} (hrest : c'.rest = ':' :: rest)
    (hspace : atSpace rest = true) (token : Token) :
    (inBlocks c' (b.add [token]) false (some (keyAt c b))).step
      = .ok (inBlocks (c'.advance 1)
          ((b.openAt c.column .blockMappingStart).add [.key, token, .value]) false none, false) := by
  refine step_of_fetch hrest ?_
  have hfetch : (inBlocks c' (b.add [token]) false (some (keyAt c b))).fetch ':' rest
      = (inBlocks c' (b.add [token]) false (some (keyAt c b))).fetchValue := by
    simp [fetch, atMark, hspace]
  rw [hfetch]
  show Except.ok (((insertKey _ _).advance 1).emit .value) = _
  rw [insertKey_inBlocks]
  rfl

/-! ### Empty brackets -/

/-- The lexer between brackets, `outside` being the key that may have started with them. -/
def inBrackets (c : Cursor) (b : Blocks) (outside : Option PossibleKey) : Lexer where
  cursor := c
  tokens := b.tokens
  depth := 1
  indent := b.indent
  outer := b.outer
  keyAllowed := true
  possible := none
  possibleOutside := [outside]

theorem forgetStale_inBrackets {outside : Option PossibleKey}
    (h : ∀ k ∈ outside, k.line = c.line ∧ c.index ≤ k.index + 1024) :
    (inBrackets c b outside).forgetStale = .ok (inBrackets c b outside) := by
  have hfresh : (inBrackets c b outside).freshKey outside = .ok outside := by
    cases outside with
    | none => rfl
    | some k =>
      obtain ⟨hline, hindex⟩ := h k rfl
      have hstale : (inBrackets c b (some k)).isStale k = false := by
        simp only [isStale, Bool.or_eq_false_iff, bne_eq_false_iff_eq, decide_eq_false_iff_not]
        exact ⟨hline, by show ¬1024 < c.index - k.index; omega⟩
      simp only [freshKey, hstale, Bool.false_eq_true, if_false]
  have hall : (inBrackets c b outside).possibleOutside.mapM (inBrackets c b outside).freshKey
      = .ok [outside] := mapM_eq_ok_iff.mpr (.cons hfresh .nil)
  unfold forgetStale
  rw [hall]
  rfl

/-- **Empty brackets before the next line.** -/
theorem leads_brackets {opening closing : Char} {start finish : Token}
    (hopen : ∀ (l : Lexer) (rest : List Char), l.fetch opening rest = l.openFlow start)
    (hclose : ∀ (l : Lexer) (rest : List Char), l.fetch closing rest = l.closeFlow finish)
    (hplain : isPlainChar opening = true ∧ isPlainChar closing = true)
    (hstarts : closing ≠ ' ' ∧ closing ≠ '#') {k : Nat}
    (hrest : c.rest = [opening, closing] ++ (newLine k ++ next)) (hnext : StartsLine k next)
    (hindent : b.indent < c.column) :
    (inBlocks c b keyAllowed none).LeadsToLine (b.add [start, finish]) k next := by
  have hinside : c.step.rest = closing :: (newLine k ++ next) := Cursor.rest_step hrest
  have hafter : c.step.step.rest = newLine k ++ next := Cursor.rest_step hinside
  have hsteps := Cursor.advance_newLine hafter
  refine ⟨c.step.step.advance (newLine k).length, by rw [hsteps], by rw [hsteps], ?_⟩
  have hfirst := Cursor.step_of_isPlainChar hplain.1 hrest
  -- a key that may start with the brackets is not required, since they stand deeper than the block
  let outside : Option PossibleKey := if keyAllowed then some (keyAt c b) else none
  have houtside : ∀ k ∈ outside, k = keyAt c b := by
    intro k hk
    simp only [outside] at hk
    split at hk
    · exact (Option.some.inj hk).symm
    · cases hk
  have hfresh : (inBrackets c.step (b.add [start]) outside).forgetStale
      = .ok (inBrackets c.step (b.add [start]) outside) := by
    refine forgetStale_inBrackets fun k hk => ?_
    rw [houtside k hk, hfirst]
    exact ⟨rfl, Nat.add_le_add_left (by decide) _⟩
  have hstarts' : StartsToken c.step.rest := by
    rw [hinside]
    exact fun x hx => Option.some.inj hx ▸ ⟨hplain.2, hstarts⟩
  refine Relation.ReflTransGen.head (b := inBrackets c.step (b.add [start]) outside)
    ⟨inBrackets c.step (b.add [start]) outside, ?_, ⟨_, hfresh, ?_⟩, ?_⟩
    (.single ⟨inBlocks c.step.step (b.add [start, finish]) false outside, ?_,
      settles_newLine ?_ hafter hnext.token, ?_⟩)
  · refine step_of_fetch hrest ?_
    rw [hopen, openFlow, rememberKey_inBlocks]
    rfl
  · unfold settle
    rw [passGap_here _ hstarts', hfresh]
    rfl
  · show c.step.rest.length < c.rest.length
    rw [hinside, hrest]
    exact Nat.lt_succ_self _
  · have hcursor : (inBrackets c.step (b.add [start]) outside).cursor.rest
        = closing :: (newLine k ++ next) := hinside
    unfold step
    simp only [hcursor, hclose]
    rfl
  · intro k hk
    rw [houtside k hk]
    exact decide_eq_false (Int.ne_of_lt hindent)
  · show (c.step.step.advance _).rest.length < c.step.rest.length
    simp only [hsteps, hinside, List.length_cons, List.length_append]
    omega

/-! ### Texts -/

/-- What may start a text without quotes is no character that starts something else, and a sign only
before a word. -/
theorem of_startsBare {x : Char} {s : List Char} (h : startsBare x s = true) :
    isPlainChar x = true ∧ (x ≠ ' ' ∧ x ≠ '#')
      ∧ x ∉ [',', '[', ']', '\x7b', '\x7d', '&', '*', '!', '|', '>', '\'', '"', '%', '@', '\x60']
      ∧ (x = '?' ∨ x = ':' ∨ x = '-' → endsWord s = false) := by
  simp only [startsBare, Bool.and_eq_true, Bool.not_eq_true', Bool.and_eq_false_iff] at h
  obtain ⟨⟨hplain, hlist⟩, hsign⟩ := h
  have hnone : x ∉ ' ' :: '#' ::
      [',', '[', ']', '\x7b', '\x7d', '&', '*', '!', '|', '>', '\'', '"', '%', '@', '\x60'] := by
    simpa using hlist
  rw [List.mem_cons, List.mem_cons, not_or, not_or] at hnone
  refine ⟨hplain, ⟨hnone.1, hnone.2.1⟩, hnone.2.2, fun hx => hsign.resolve_left ?_⟩
  obtain rfl | rfl | rfl := hx
  all_goals decide

/-- What may start a text without quotes starts a plain scalar. -/
theorem fetch_bare {x : Char} {s rest : List Char} (hstart : startsBare x s = true)
    (hrest : endsWord s = false → atSpace rest = false)
    (hmark : (c.column == 0 && atSeparator (x :: rest)) = false) :
    (inBlocks c b keyAllowed possible).fetch x rest
      = (inBlocks c b keyAllowed possible).fetchPlain := by
  have hmarks : (c.column == 0 && atMark '-' (x :: rest)) = false
      ∧ (c.column == 0 && atMark '.' (x :: rest)) = false := by
    rw [atSeparator, Bool.and_or_distrib_left, Bool.or_eq_false_iff] at hmark
    exact hmark
  have hcursor : (inBlocks c b keyAllowed possible).cursor = c := rfl
  have hflow : (inBlocks c b keyAllowed possible).inFlow = false := rfl
  obtain ⟨hplain, ⟨hblank, hhash⟩, hnone, hsign⟩ := of_startsBare hstart
  by_cases hsigns : x = '?' ∨ x = ':' ∨ x = '-'
  · have hspace := hrest (hsign hsigns)
    obtain rfl | rfl | rfl := hsigns
    all_goals simp [fetch, hcursor, hmarks, hflow, hspace, startsPlain]
  · rw [not_or, not_or] at hsigns
    simp only [List.mem_cons, List.not_mem_nil, or_false, not_or] at hnone
    have hspace : isSpace x = false := isSpace_of_isPlainChar hplain hblank
    simp [fetch, hcursor, hmarks, hflow, hhash, hnone, hsigns, startsPlain, hspace, isIndicator]

theorem atSeparatorMarks_of_isBare {s : List Char} (hs : isBare s = true) :
    atSeparatorMarks s = false := by
  cases s with
  | nil => rfl
  | cons x s =>
    simp only [isBare, Bool.and_eq_true, Bool.not_eq_true'] at hs
    exact hs.1.2

/-- What may stand without quotes starts with a character that no blank follows where it matters. -/
theorem exists_cons_of_isBare {s : List Char} (hs : isBare s = true) (fold : Bool)
    (indent column : Nat) (after : List Char) :
    continuesBare true s = true ∧ s.head? ≠ some ' '
      ∧ ∃ x s' rest, s = x :: s' ∧ startsBare x s' = true
        ∧ foldedText false fold indent column none s ++ after = x :: rest
        ∧ (endsWord s' = false → atSpace rest = false) := by
  cases s with
  | nil => exact absurd hs Bool.false_ne_true
  | cons x s =>
    simp only [isBare, Bool.and_eq_true] at hs
    obtain ⟨⟨hstart, -⟩, hgoes⟩ := hs
    obtain ⟨hplain, ⟨hblank, hhash⟩, -, hsign⟩ := of_startsBare hstart
    have hform : foldedText false fold indent column none (x :: s) = _ :=
      foldedText_char hblank (ne_newline_of_isPlainChar hplain) s
    refine ⟨?_, fun h => hblank (Option.some.inj h), x, s, _, rfl, hstart,
      by rw [hform]; rfl, fun hends => ?_⟩
    · have hcolon : (x == ':' && endsWord s) = false := by
        rw [Bool.and_eq_false_iff, beq_eq_false_iff_ne]
        exact (em (x = ':')).symm.imp_right fun h => hsign (.inr (.inl h))
      simp only [continuesBare, hplain, hcolon, beq_eq_false_iff_ne.mpr hblank,
        beq_eq_false_iff_ne.mpr hhash, hgoes]
      rfl
    · cases s with
      | nil => exact absurd hends (by decide)
      | cons y s =>
        have hy : y ≠ ' ' := by
          rintro rfl
          exact absurd hends (by simp [endsWord])
        have hyplain := isPlainChar_of_continuesBare hgoes y List.mem_cons_self
        rw [foldedText_char hy (ne_newline_of_isPlainChar hyplain)]
        exact isSpace_of_isPlainChar hyplain hy

/-- **A text without quotes as a token**, up to where it is known to stop. -/
theorem step_bare {s after gap : List Char} {fold broken : Bool} {indent column : Nat}
    {stop : Cursor} (hs : isBare s = true)
    (hrest : c.rest = foldedText false fold indent column none s ++ after)
    (hindent : fold = true → 0 < indent ∧ b.indent < indent) (hcolumn : b.indent ≤ c.column)
    (hmark : (c.column == 0 && atSeparator c.rest) = false) (hafter : plainWord false after = 0)
    (hgap : plainGap (c.advance (foldedText false fold indent column none s).length)
      = (gap, stop, broken))
    (hstop : (gap.isEmpty || stop.sees '#' || decide ((stop.column : Int) < b.indent + 1)) = true) :
    (inBlocks c b keyAllowed none).step
      = .ok (inBlocks stop (b.add [.scalar (String.ofList s) true]) broken
          (if keyAllowed then some (keyAt c b) else none), false) := by
  obtain ⟨hbare, hhead, x, s', rest, hx, hstart, hcons, hspace⟩ :=
    exists_cons_of_isBare hs fold indent column after
  have hlength : s.length < c.rest.length + 1 := by
    have hle : s.length ≤ (foldedText false fold indent column none s).length :=
      length_le_foldedText (isPlainChar_of_continuesBare hbare)
    rw [hrest, List.length_append]
    omega
  have hread := plainFrom_foldedText (b.indent + 1)
    (fun h => ⟨(hindent h).1, Int.add_one_le_of_lt (hindent h).2⟩) hafter hgap hstop
    (c.rest.length + 1) column none hbare hhead hlength hrest (by omega) rfl [] [] false
  refine step_of_fetch (hrest.trans hcons) ?_
  rw [fetch_bare hstart hspace (by rw [← hcons, ← hrest]; exact hmark), fetchPlain,
    rememberKey_inBlocks]
  show Except.ok (emit { inBlocks c b keyAllowed _ with
    cursor := (plainScalar false (b.indent + 1) c).2.1
    keyAllowed := (plainScalar false (b.indent + 1) c).2.2 }
    (.scalar (String.ofList (plainScalar false (b.indent + 1) c).1) true)) = _
  rw [plainScalar, hread]
  rfl

/-- **A text between single quotes as a token.** -/
theorem step_quoted (b : Blocks) (keyAllowed : Bool) {s after : List Char} {fold : Bool}
    {indent column : Nat}
    (hs : ∀ c ∈ s, isPlainChar c = true)
    (hrest : c.rest
      = '\'' :: (foldedText true fold indent column none s ++ '\'' :: after))
    (hindent : fold = true → 0 < indent) (hafter : after.head? ≠ some '\'') :
    (inBlocks c b keyAllowed none).step
      = .ok (inBlocks (c.advance ((foldedText true fold indent column none s).length + 2))
          (b.add [.scalar (String.ofList s) false]) false
          (if keyAllowed then some (keyAt c b) else none), false) := by
  have hlength : s.length < c.rest.length + 1 := by
    have hle : s.length ≤ (foldedText true fold indent column none s).length :=
      length_le_foldedText hs
    rw [hrest, List.length_cons, List.length_append]
    omega
  have hread := quotedFrom_foldedText hindent hafter (c.rest.length + 1) column none hs hlength
    (Cursor.rest_step hrest) []
  refine step_of_fetch hrest ?_
  have hfetch : ∀ rest, (inBlocks c b keyAllowed none).fetch '\'' rest
      = (inBlocks c b keyAllowed none).fetchQuoted false := by
    intro rest
    simp [fetch, atMark]
  rw [hfetch, fetchQuoted, fetchNode, rememberKey_inBlocks]
  show (quotedScalar false c >>= fun r => Except.ok (Token.scalar (String.ofList r.1) false, r.2))
    >>= _ = _
  rw [quotedScalar, hread]
  rfl

end Lexer

/-! ### Texts as they are written -/

/-- **A text of printable ASCII.** -/
def IsPrintable (s : String) : Prop := ∀ c ∈ s.toList, isPlainChar c = true

instance : DecidablePred IsPrintable := fun s =>
  decidable_of_iff (s.toList.all isPlainChar = true) List.all_eq_true

/-- The token of a text. -/
def textToken (s : String) : Token := .scalar s (decide (QuoteStyle.of s.toList = .bare))

theorem hasBlankAtBreak_of_isPlainChar {s : List Char} (hs : ∀ c ∈ s, isPlainChar c = true) :
    hasBlankAtBreak s = false := by
  induction s with
  | nil => rfl
  | cons a s ih =>
    cases s with
    | nil => rfl
    | cons b s =>
      rw [List.forall_mem_cons] at hs
      have ha := beq_eq_false_iff_ne.mpr (ne_newline_of_isPlainChar hs.1)
      have hb := beq_eq_false_iff_ne.mpr (ne_newline_of_isPlainChar (hs.2 b List.mem_cons_self))
      rw [hasBlankAtBreak, ha, hb, ih hs.2]
      simp

/-- Printable ASCII needs no escapes, and what is written without quotes is read as a text. -/
theorem quoteStyle_of_isPrintable {s : String} (hs : IsPrintable s) :
    (QuoteStyle.of s.toList = .bare ∧ Kind.ofScalar s.toList = .text ∧ isBare s.toList = true)
      ∨ QuoteStyle.of s.toList = .single := by
  have hquotable : isSimplyQuotable s.toList = true := by
    rw [isSimplyQuotable, hasBlankAtBreak_of_isPlainChar hs, Bool.not_false, Bool.and_true,
      List.all_eq_true]
    intro c hc
    rw [hs c hc, Bool.or_true]
  unfold QuoteStyle.of
  split
  · next hbare =>
    simp only [Bool.and_eq_true, decide_eq_true_eq] at hbare
    exact .inl ⟨rfl, hbare⟩
  · exact .inr rfl

section

variable {s : String} {fold : Bool} {indent column : Nat}

theorem writeText_bare (h : QuoteStyle.of s.toList = .bare) :
    writeText fold indent column s.toList = foldedText false fold indent column none s.toList := by
  rw [writeText, h]

theorem writeText_single (h : QuoteStyle.of s.toList = .single) :
    writeText fold indent column s.toList
      = '\'' :: (foldedText true fold indent (column + 1) none s.toList ++ ['\'']) := by
  rw [writeText, h]
  rfl

theorem textToken_bare (h : QuoteStyle.of s.toList = .bare) :
    textToken s = .scalar (String.ofList s.toList) true := by
  rw [textToken, h, String.ofList_toList]
  rfl

theorem textToken_single (h : QuoteStyle.of s.toList = .single) :
    textToken s = .scalar (String.ofList s.toList) false := by
  rw [textToken, h, String.ofList_toList]
  rfl

/-- What is written is printable, but for the line ends where lines are folded. -/
theorem isPlainChar_of_mem_writeText (hs : IsPrintable s) {x : Char}
    (hx : x ∈ writeText fold indent column s.toList) :
    isPlainChar x = true ∨ (fold = true ∧ x = '\n') := by
  obtain ⟨hbare, -⟩ | hsingle := quoteStyle_of_isPrintable hs
  · rw [writeText_bare hbare] at hx
    exact isPlainChar_of_mem_foldedText hs hx
  · rw [writeText_single hsingle, List.mem_cons, List.mem_append, List.mem_singleton] at hx
    obtain rfl | hx | rfl := hx
    · exact .inl (by decide)
    · exact isPlainChar_of_mem_foldedText hs hx
    · exact .inl (by decide)

/-- A key does not look like a separator of documents. -/
theorem atSeparator_key (hs : IsPrintable s) (rest : List Char) :
    atSeparator (writeText false indent column s.toList ++ ':' :: rest) = false := by
  obtain ⟨hstyle, -, hbare⟩ | hstyle := quoteStyle_of_isPrintable hs
  · rw [writeText_bare hstyle, foldedText_unfolded hs]
    exact atSeparator_of_atSeparatorMarks (Lexer.atSeparatorMarks_of_isBare hbare) (by decide) rest
  · rw [writeText_single hstyle]
    rfl

theorem length_writeText_pos (hs : IsPrintable s) (fold : Bool) (indent column : Nat) :
    0 < (writeText fold indent column s.toList).length := by
  obtain ⟨hstyle, -, hbare⟩ | hstyle := quoteStyle_of_isPrintable hs
  · have hne : s.toList ≠ [] := fun h => by
      rw [h] at hbare
      exact Bool.false_ne_true hbare
    rw [writeText_bare hstyle]
    exact Nat.lt_of_lt_of_le (List.length_pos_iff.mpr hne) (length_le_foldedText hs)
  · rw [writeText_single hstyle]
    exact Nat.succ_pos _

theorem length_writeText_le (hs : IsPrintable s) (indent column : Nat) :
    (writeText false indent column s.toList).length ≤ 2 * s.toList.length + 2 := by
  obtain ⟨hstyle, -, -⟩ | hstyle := quoteStyle_of_isPrintable hs
  · rw [writeText_bare hstyle]
    exact Nat.le_add_right_of_le (length_foldedText_le hs)
  · rw [writeText_single hstyle, List.length_cons, List.length_append]
    exact Nat.add_le_add_right (length_foldedText_le hs) 2

end

namespace Lexer

variable {c : Cursor} {b : Blocks} {keyAllowed : Bool} {s : String} {next : List Char}

/-- **A text before a colon is a key that may have started**, all on one line. -/
theorem step_key {indent column : Nat} {rest : List Char} (hs : IsPrintable s)
    (hrest : c.rest = writeText false indent column s.toList ++ ':' :: rest)
    (hspace : atSpace rest = true) (hcolumn : b.indent ≤ c.column) :
    (inBlocks c b true none).step
      = .ok (inBlocks (c.advance (writeText false indent column s.toList).length)
          (b.add [textToken s]) false (some (keyAt c b)), false) := by
  obtain ⟨hstyle, -, hbare⟩ | hstyle := quoteStyle_of_isPrintable hs
  · rw [writeText_bare hstyle] at hrest ⊢
    rw [textToken_bare hstyle]
    have hgap : plainGap (c.advance (foldedText false false indent column none s.toList).length)
        = ([], c.advance (foldedText false false indent column none s.toList).length, false) :=
      plainGap_blanks 0 (Cursor.rest_advance hrest) fun x hx => Option.some.inj hx ▸ by decide
    have hword : plainWord false (':' :: rest) = 0 := by
      have hends : endsAtColon false rest = true := by
        cases rest with
        | nil => rfl
        | cons x rest => exact Bool.or_eq_true_iff.mpr (.inl hspace)
      rw [plainWord, endsPlainWord, hends]
      rfl
    have hmark : (c.column == 0 && atSeparator c.rest) = false := by
      rw [hrest, ← writeText_bare hstyle, atSeparator_key hs, Bool.and_false]
    exact step_bare hbare hrest (by simp) hcolumn hmark hword hgap rfl
  · rw [writeText_single hstyle] at hrest ⊢
    rw [textToken_single hstyle, List.length_cons, List.length_append]
    rw [List.cons_append, List.append_assoc] at hrest
    exact step_quoted b true hs hrest (by simp) (by simp)

/-- No key is required where something stands deeper than the innermost block. -/
theorem required_of_keyAt (keyAllowed : Bool) (hcolumn : b.indent < c.column) :
    ∀ key ∈ (if keyAllowed then some (keyAt c b) else none),
      key.required = false ∧ key.line = c.line := by
  intro key hkey
  split at hkey
  · rw [← Option.some.inj hkey]
    exact ⟨decide_eq_false (Int.ne_of_lt hcolumn), rfl⟩
  · cases hkey

/-- Where the text ends that stands before the next line. -/
theorem exists_stop {t : List Char} {k : Nat} (hrest : c.rest = t ++ (newLine k ++ next)) :
    ∃ stop, (c.advance t.length).advance (newLine k).length = stop ∧ stop.rest = next
      ∧ stop.column = k ∧ c.line < stop.line ∧ next.length < c.rest.length := by
  have hpass := Cursor.advance_newLine (Cursor.rest_advance hrest)
  refine ⟨_, rfl, by rw [hpass], by rw [hpass], ?_, ?_⟩
  · rw [hpass]
    exact Nat.lt_succ_of_le (Cursor.line_le_advance c t.length)
  · rw [hrest, newLine]
    simp only [List.length_append, List.length_cons]
    omega

/-- **A text before the next line**, which is indented no deeper than what holds the text. -/
theorem leads_text {fold : Bool} {indent column k : Nat} (hs : IsPrintable s)
    (hrest : c.rest = writeText fold indent column s.toList ++ (newLine k ++ next))
    (hnext : StartsLine k next) (hk : k ≤ b.indent) (hindent : b.indent < indent)
    (hcolumn : b.indent < c.column) :
    (inBlocks c b keyAllowed none).LeadsToLine (b.add [textToken s]) k next := by
  have hpossible := required_of_keyAt keyAllowed hcolumn
  have hafter := Cursor.rest_advance hrest
  obtain ⟨stop, hstop, hstopRest, hstopColumn, hline, hless⟩ := exists_stop hrest
  refine ⟨stop, hstopRest, hstopColumn, .single ?_⟩
  obtain ⟨hstyle, -, hbare⟩ | hstyle := quoteStyle_of_isPrintable hs
  · rw [writeText_bare hstyle] at hrest hafter hstop
    rw [textToken_bare hstyle]
    have hmark : (c.column == 0 && atSeparator c.rest) = false := by
      rw [beq_eq_false_iff_ne.mpr (by omega), Bool.false_and]
    -- the text stops there, since the next line is indented no deeper than what holds it
    have hends : ([' '].isEmpty || stop.sees '#'
        || decide ((stop.column : Int) < b.indent + 1)) = true := by
      rw [hstopColumn, decide_eq_true (by omega), Bool.or_true]
    have hgap := plainGap_newLine hafter hnext.token.isSpace hnext.noSeparator
    rw [hstop] at hgap
    refine ⟨_, step_bare hbare hrest (fun _ => ⟨by omega, hindent⟩) (Int.le_of_lt hcolumn) hmark rfl
      hgap hends, ?_, hstopRest ▸ hless⟩
    rw [← hstopColumn]
    refine settles_here (fun key hkey => ⟨(hpossible key hkey).1, ?_⟩) (hstopRest ▸ hnext.token)
    rw [(hpossible key hkey).2]
    exact Nat.ne_of_lt hline
  · rw [writeText_single hstyle] at hrest hafter hstop
    rw [textToken_single hstyle]
    rw [List.cons_append, List.append_assoc] at hrest
    have hstep := step_quoted b keyAllowed hs hrest (fun _ => by omega) (by simp [newLine])
    have hlength : ('\'' :: (foldedText true fold indent (column + 1) none s.toList
        ++ ['\''])).length = (foldedText true fold indent (column + 1) none s.toList).length + 2 := by
      simp
    rw [hlength] at hafter hstop
    subst hstop
    exact ⟨_, hstep, settles_newLine (fun key hkey => (hpossible key hkey).1) hafter hnext.token,
      hstopRest ▸ hless⟩

end Lexer

end SlotSafe.Yaml
