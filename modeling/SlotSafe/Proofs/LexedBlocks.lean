import SlotSafe.Proofs.LexedTexts

/-!
# Lists and maps as tokens

A list or map of texts that is written as a block is read as the tokens of its parts between a start
and an end. Nothing in the text says where it ends: the lexer sees it at the first line that is
indented less. So each statement here speaks of a part together with the line after it, which is
indented no deeper than what holds the part, and of the blocks that this line ends.

A part stands in one of two places. Behind the sign of an item, behind a question mark and behind
the colon that belongs to one it starts at its own column (`LexesInBlock`). Behind the colon of a
key on the same line a list or map starts on the next line, a list at the column of the key, where
it is no block of its own and has neither start nor end (`LexesUnderKey`).

One item or entry after the other, lists and maps are inductions over their parts (`leads_items`,
`leads_entries`). The first part of a block opens it, and for the others it is open already; both is
`Blocks.openAt`.
-/

namespace SlotSafe.Yaml

namespace Lexer

/-- From just after a token to a later line. -/
def ReachesLine (l : Lexer) (b : Blocks) (k : Nat) (next : List Char) : Prop :=
  ∃ s, l.Settles s ∧ s.cursor.rest.length ≤ l.cursor.rest.length ∧ s.LeadsToLine b k next

variable {c : Cursor} {b b' : Blocks} {keyAllowed : Bool} {k : Nat} {next line : List Char}
  {s l : Lexer}

theorem leadsToLine_of_step (hstep : s.step = .ok (l, false))
    (hless : l.cursor.rest.length < s.cursor.rest.length) (hl : l.ReachesLine b k line) :
    s.LeadsToLine b k line := by
  obtain ⟨u, hu, hle, c, hrest, hcolumn, hleads⟩ := hl
  exact ⟨c, hrest, hcolumn, .head ⟨l, hstep, hu, Nat.lt_of_le_of_lt hle hless⟩ hleads⟩

/-- From line to line. -/
theorem LeadsToLine.trans (h : s.LeadsToLine b k line) (hb : b.indent ≤ k) {k' : Nat}
    (hline : ∀ c : Cursor, c.rest = line → c.column = k →
      (inBlocks c b true none).LeadsToLine b' k' next) : s.LeadsToLine b' k' next := by
  obtain ⟨c, hrest, hcolumn, hleads⟩ := h
  obtain ⟨c', hrest', hcolumn', hleads'⟩ := hline c hrest hcolumn
  rw [Blocks.close_of_le hb] at hleads
  exact ⟨c', hrest', hcolumn', hleads.trans hleads'⟩

/-- Behind a sign and a blank. -/
theorem reaches_blank (hrest : c.rest = ' ' :: next) (hnext : StartsToken next)
    (hcolumn : b.indent ≤ c.column)
    (ht : (inBlocks (c.advance 1) b keyAllowed none).LeadsToLine b' k line) :
    (inBlocks c b keyAllowed none).ReachesLine b' k line := by
  have hstep : c.advance 1 = _ := Cursor.step_of_isPlainChar (by decide) hrest
  refine ⟨_, settles_blank hrest hnext ?_, ?_, ht⟩
  · rw [hstep]
    simp only
    omega
  · show (c.advance 1).rest.length ≤ c.rest.length
    rw [hstep, hrest]
    exact Nat.le_succ _

/-- From a sign to what stands behind it, two columns further. -/
theorem leads_sign {x : Char} {b₁ : Blocks} (hx : isPlainChar x = true)
    (hrest : c.rest = x :: ' ' :: next)
    (hstep : (inBlocks c b true none).step = .ok (inBlocks (c.advance 1) b₁ true none, false))
    (hnext : StartsToken next) (hcolumn : b₁.indent ≤ c.column)
    (ht : ∀ c₂ : Cursor, c₂.rest = next → c₂.column = c.column + 2 →
      (inBlocks c₂ b₁ true none).LeadsToLine b' k line) :
    (inBlocks c b true none).LeadsToLine b' k line := by
  have hsign : c.advance 1 = _ := Cursor.step_of_isPlainChar hx hrest
  have hblank : (c.advance 1).advance 1 = _ :=
    Cursor.step_of_isPlainChar (c := c.advance 1) (x := ' ') (by decide) (by rw [hsign])
  refine leadsToLine_of_step hstep ?_ (reaches_blank (by rw [hsign]) hnext ?_
    (ht _ (by rw [hblank]) (by rw [hblank, hsign])))
  · show (c.advance 1).rest.length < c.rest.length
    rw [hsign, hrest]
    exact Nat.lt_succ_self _
  · rw [hsign]
    simp only
    omega

/-- Behind a colon, on the next line. -/
theorem reaches_newLine {indent : Nat} (hrest : c.rest = newLine indent ++ next)
    (hnext : StartsToken next) (hcolumn : b.indent ≤ indent)
    (ht : ∀ c : Cursor, c.rest = next → c.column = indent →
      (inBlocks c b true none).LeadsToLine b' k line) :
    (inBlocks c b keyAllowed none).ReachesLine b' k line := by
  have hsettles : (inBlocks c b keyAllowed none).Settles _ :=
    settles_newLine (fun _ hk => nomatch hk) hrest hnext
  rw [Blocks.close_of_le hcolumn] at hsettles
  have hpass := Cursor.advance_newLine hrest
  refine ⟨_, hsettles, ?_, ht _ (by rw [hpass]) (by rw [hpass])⟩
  show (c.advance (newLine indent).length).rest.length ≤ c.rest.length
  rw [hpass, hrest, List.length_append]
  exact Nat.le_add_left _ _

theorem startsLine_cons {k : Nat} {x : Char} {rest : List Char}
    (hx : isPlainChar x = true ∧ x ≠ ' ' ∧ x ≠ '#') (hmark : atSeparator (x :: rest) = false) :
    StartsLine k (x :: rest) where
  token _ hy := Option.some.inj hy ▸ hx
  noSeparator := by
    cases k with
    | zero => exact hmark
    | succ k => exact atSeparator_blank _

theorem startsLine_item (k : Nat) (rest : List Char) : StartsLine k ('-' :: ' ' :: rest) :=
  startsLine_cons (by decide) (by cases rest <;> rfl)

theorem startsLine_questionMark (k : Nat) (rest : List Char) : StartsLine k ('?' :: ' ' :: rest) :=
  startsLine_cons (by decide) (by cases rest <;> rfl)

theorem startsLine_colon (k : Nat) (rest : List Char) : StartsLine k (':' :: ' ' :: rest) :=
  startsLine_cons (by decide) (by cases rest <;> rfl)

theorem startsLine_nil : StartsLine 0 [] where
  token _ hx := nomatch hx
  noSeparator := rfl

/-- A text of lines of printable ASCII. -/
def IsPlainText (s : List Char) : Prop := ∀ x ∈ s, isPlainChar x = true ∨ x = '\n'

theorem isPlainText_append {s t : List Char} :
    IsPlainText (s ++ t) ↔ IsPlainText s ∧ IsPlainText t := List.forall_mem_append

theorem isPlainText_cons {x : Char} {s : List Char} (hx : isPlainChar x = true) :
    IsPlainText (x :: s) ↔ IsPlainText s := by
  unfold IsPlainText
  rw [List.forall_mem_cons, and_iff_right (.inl hx)]

theorem isPlainText_newLine (indent : Nat) : IsPlainText (newLine indent) :=
  List.forall_mem_cons.mpr ⟨.inr rfl, fun x hx => .inl (Cursor.isPlainChar_blanks indent x hx)⟩

theorem isPlainText_writeText {s : String} (hs : IsPrintable s) (fold : Bool)
    (indent column : Nat) : IsPlainText (writeText fold indent column s.toList) := fun _ hx =>
  (isPlainChar_of_mem_writeText hs hx).imp_right And.right

/-- **A part at its own column is read as the given tokens.** -/
structure LexesInBlock (o : Outline) (tokens : List Token) : Prop where
  chars : ∀ indent marked, IsPlainText (writeBlock indent marked o)
  starts : ∀ indent marked after, StartsToken (writeBlock indent marked o ++ after)
  leads : ∀ {c : Cursor} {b : Blocks} {indent marked k : Nat} {next : List Char},
    c.column = indent → c.rest = writeBlock indent marked o ++ (newLine k ++ next) →
    StartsLine k next → k ≤ b.indent → b.indent < indent →
    (inBlocks c b true none).LeadsToLine (b.add tokens) k next

/-- **A part behind the colon of a key is read as the given tokens.** -/
structure LexesUnderKey (o : Outline) (tokens : List Token) : Prop where
  chars : ∀ indent column, IsPlainText (writeUnder indent column o)
  starts : ∀ indent column after, atSpace (writeUnder indent column o ++ after) = true
  reaches : ∀ {c : Cursor} {b : Blocks} {indent column k : Nat} {next : List Char},
    c.rest = writeUnder indent column o ++ (newLine k ++ next) → StartsLine k next →
    k ≤ indent → b.indent = indent → indent < c.column →
    (inBlocks c b false none).ReachesLine (b.add tokens) k next

/-! ## Texts -/

theorem startsToken_writeText {s : String} (hs : IsPrintable s) (fold : Bool) (indent column : Nat)
    (after : List Char) : StartsToken (writeText fold indent column s.toList ++ after) := by
  intro x hx
  obtain ⟨hstyle, -, hbare⟩ | hstyle := quoteStyle_of_isPrintable hs
  · obtain ⟨-, -, y, s', rest, -, hstart, hcons, -⟩ :=
      exists_cons_of_isBare hbare fold indent column after
    rw [writeText_bare hstyle, hcons] at hx
    obtain rfl := Option.some.inj hx
    obtain ⟨hplain, hsigns, -⟩ := of_startsBare hstart
    exact ⟨hplain, hsigns⟩
  · rw [writeText_single hstyle] at hx
    obtain rfl := Option.some.inj hx
    decide

theorem writeBlock_text (s : String) (indent marked : Nat) :
    writeBlock indent marked (.scalar none (.text s)) = writeText true indent indent s.toList := by
  simp only [writeBlock, leadingMarks, marks, anchorMark, writeScalar, List.nil_append,
    List.length_nil, Nat.add_zero]

theorem writeUnder_text (s : String) (indent column : Nat) :
    writeUnder indent column (.scalar none (.text s))
      = ' ' :: writeText true (indent + 2) (column + 1) s.toList := by
  simp only [writeUnder, marks, anchorMark, writeScalar, List.nil_append, List.length_nil,
    Nat.add_zero]

theorem lexesInBlock_text {s : String} (hs : IsPrintable s) :
    LexesInBlock (.scalar none (.text s)) [textToken s] where
  chars indent marked := by
    rw [writeBlock_text]
    exact isPlainText_writeText hs _ _ _
  starts indent marked after := by
    rw [writeBlock_text]
    exact startsToken_writeText hs _ _ _ _
  leads hindent hrest hnext hk hcolumn := by
    rw [writeBlock_text] at hrest
    exact leads_text hs hrest hnext hk hcolumn (hindent ▸ hcolumn)

theorem lexesUnderKey_text {s : String} (hs : IsPrintable s) :
    LexesUnderKey (.scalar none (.text s)) [textToken s] where
  chars indent column := by
    rw [writeUnder_text, isPlainText_cons (by decide)]
    exact isPlainText_writeText hs _ _ _
  starts indent column after := by
    rw [writeUnder_text]
    rfl
  reaches {c b indent column k next} hrest hnext hk hindent hcolumn := by
    rw [writeUnder_text, List.cons_append] at hrest
    have hstep : c.advance 1 = _ := Cursor.step_of_isPlainChar (by decide) hrest
    exact reaches_blank hrest (startsToken_writeText hs _ _ _ _) (by omega)
      (leads_text hs (by rw [hstep]) hnext (by omega) (by omega) (by rw [hstep]; simp only; omega))

/-! ## Empty lists and maps -/

/-- Brackets with nothing between them, and the tokens that they are. -/
structure IsBrackets (opening closing : Char) (start finish : Token) : Prop where
  opens : ∀ (l : Lexer) (rest : List Char), l.fetch opening rest = l.openFlow start
  closes : ∀ (l : Lexer) (rest : List Char), l.fetch closing rest = l.closeFlow finish
  plain : isPlainChar opening = true ∧ isPlainChar closing = true
  opening : opening ≠ ' ' ∧ opening ≠ '#'
  closing : closing ≠ ' ' ∧ closing ≠ '#'

theorem isBrackets_list : IsBrackets '[' ']' .flowSequenceStart .flowSequenceEnd where
  opens l rest := by simp [fetch, atMark]
  closes l rest := by simp [fetch, atMark]
  plain := by decide
  opening := by decide
  closing := by decide

theorem isBrackets_map : IsBrackets '\x7b' '\x7d' .flowMappingStart .flowMappingEnd where
  opens l rest := by simp [fetch, atMark]
  closes l rest := by simp [fetch, atMark]
  plain := by decide
  opening := by decide
  closing := by decide

variable {opening closing : Char} {start finish : Token} {o : Outline}

theorem IsBrackets.chars (h : IsBrackets opening closing start finish) :
    IsPlainText [opening, closing] := by
  rw [isPlainText_cons h.plain.1, isPlainText_cons h.plain.2]
  exact List.forall_mem_nil _

theorem IsBrackets.starts (h : IsBrackets opening closing start finish) (after : List Char) :
    StartsToken ([opening, closing] ++ after) := fun _ hx =>
  Option.some.inj hx ▸ ⟨h.plain.1, h.opening⟩

theorem lexesInBlock_brackets (h : IsBrackets opening closing start finish)
    (ho : ∀ indent marked, writeBlock indent marked o = [opening, closing]) :
    LexesInBlock o [start, finish] where
  chars indent marked := by
    rw [ho]
    exact h.chars
  starts indent marked after := by
    rw [ho]
    exact h.starts after
  leads hindent hrest hnext hk hcolumn := by
    rw [ho] at hrest
    exact leads_brackets h.opens h.closes h.plain h.closing hrest hnext (hindent ▸ hcolumn)

theorem lexesUnderKey_brackets (h : IsBrackets opening closing start finish)
    (ho : ∀ indent column, writeUnder indent column o = ' ' :: [opening, closing]) :
    LexesUnderKey o [start, finish] where
  chars indent column := by
    rw [ho, isPlainText_cons (by decide)]
    exact h.chars
  starts indent column after := by
    rw [ho]
    rfl
  reaches {c b indent column k next} hrest hnext hk hindent hcolumn := by
    rw [ho, List.cons_append] at hrest
    have hstep : c.advance 1 = _ := Cursor.step_of_isPlainChar (by decide) hrest
    exact reaches_blank hrest (h.starts _) (by omega) (leads_brackets h.opens h.closes h.plain
      h.closing (by rw [hstep]) hnext (by rw [hstep]; simp only; omega))

theorem lexesInBlock_emptyList :
    LexesInBlock (.list none []) [.flowSequenceStart, .flowSequenceEnd] :=
  lexesInBlock_brackets isBrackets_list fun indent marked => by rw [writeBlock]; rfl

theorem lexesUnderKey_emptyList :
    LexesUnderKey (.list none []) [.flowSequenceStart, .flowSequenceEnd] :=
  lexesUnderKey_brackets isBrackets_list fun indent column => by rw [writeUnder]; rfl

theorem lexesInBlock_emptyMap :
    LexesInBlock (.map none false []) [.flowMappingStart, .flowMappingEnd] :=
  lexesInBlock_brackets isBrackets_map fun indent marked => by rw [writeBlock]; rfl

theorem lexesUnderKey_emptyMap :
    LexesUnderKey (.map none false []) [.flowMappingStart, .flowMappingEnd] :=
  lexesUnderKey_brackets isBrackets_map fun indent column => by rw [writeUnder]; rfl

/-! ## Lists -/

/-- The tokens of items, a sign before each. -/
def itemTokens (items : List (List Token)) : List Token := items.flatMap (.blockEntry :: ·)

/-- An item and the line after it. -/
theorem leads_item {o : Outline} {tokens : List Token} {indent : Nat} (ho : LexesInBlock o tokens)
    (hcolumn : c.column = indent)
    (hrest : c.rest = '-' :: ' ' :: (writeBlock (indent + 2) (indent + 2) o
      ++ (newLine k ++ next)))
    (hnext : StartsLine k next) (hk : k ≤ indent) (hindent : b.indent ≤ indent) :
    (inBlocks c b true none).LeadsToLine
      ((b.openAt indent .blockSequenceStart).add (.blockEntry :: tokens)) k next := by
  have hopen := Blocks.indent_add_openAt hindent .blockSequenceStart [.blockEntry]
  have hstep := step_item (b := b) hrest
  rw [hcolumn] at hstep
  refine leads_sign (by decide) hrest hstep (ho.starts _ _ _) (by omega)
    fun c₂ hrest₂ hcolumn₂ => ?_
  have hleads := ho.leads (by omega) hrest₂ hnext
    (Int.le_trans (by omega) (Int.le_of_eq hopen.symm)) (by omega)
  rwa [Blocks.add_add] at hleads

/-- **Items one after the other**, at the column of the first. -/
theorem leads_items {first : Outline} {firstTokens : List Token} {rest : List Outline}
    {restTokens : List (List Token)} {indent : Nat} (hfirst : LexesInBlock first firstTokens)
    (hrest : List.Forall₂ LexesInBlock rest restTokens) (hcolumn : c.column = indent)
    (hchars : c.rest = '-' :: ' ' :: (writeBlock (indent + 2) (indent + 2) first
      ++ (writeItems indent rest ++ (newLine k ++ next))))
    (hnext : StartsLine k next) (hk : k ≤ indent) (hindent : b.indent ≤ indent) :
    (inBlocks c b true none).LeadsToLine ((b.openAt indent .blockSequenceStart).add
      (itemTokens (firstTokens :: restTokens))) k next := by
  induction hrest generalizing first firstTokens c b with
  | nil =>
    rw [writeItems, List.nil_append] at hchars
    simpa [itemTokens] using leads_item hfirst hcolumn hchars hnext hk hindent
  | @cons item tokens rest restTokens hitem _ ih =>
    rw [writeItems] at hchars
    simp only [List.append_assoc, List.cons_append] at hchars
    have hopen := Blocks.indent_add_openAt hindent .blockSequenceStart (.blockEntry :: firstTokens)
    refine (leads_item hfirst hcolumn hchars (startsLine_item _ _) le_rfl hindent).trans
      (Int.le_of_eq hopen) fun c₁ hrest₁ hcolumn₁ => ?_
    have hothers := ih hitem hcolumn₁ hrest₁ (Int.le_of_eq hopen)
    rwa [Blocks.openAt_add_openAt hindent, Blocks.add_add] at hothers

/-- What is written of items. -/
theorem chars_of_items {items : List Outline} {tokens : List (List Token)}
    (h : List.Forall₂ LexesInBlock items tokens) (indent : Nat) :
    IsPlainText (writeItems indent items) := by
  induction h with
  | nil =>
    rw [writeItems]
    exact List.forall_mem_nil _
  | cons hitem _ ih =>
    rw [writeItems, List.append_assoc, isPlainText_append, List.cons_append, List.cons_append,
      isPlainText_cons (by decide), isPlainText_cons (by decide), isPlainText_append]
    exact ⟨isPlainText_newLine indent, hitem.chars _ _, ih⟩

theorem writeBlock_list (first : Outline) (rest : List Outline) (indent marked : Nat) :
    writeBlock indent marked (.list none (first :: rest))
      = '-' :: ' ' :: (writeBlock (indent + 2) (indent + 2) first ++ writeItems indent rest) := by
  rw [writeBlock]
  rfl

theorem writeUnder_list (first : Outline) (rest : List Outline) (indent column : Nat) :
    writeUnder indent column (.list none (first :: rest))
      = newLine indent
        ++ '-' :: ' ' :: (writeBlock (indent + 2) (indent + 2) first ++ writeItems indent rest) := by
  rw [writeUnder]
  simp [anchorMark]

/-- **A list is a block of its own**, with a start and an end. -/
theorem lexesInBlock_list {first : Outline} {rest : List Outline} {firstTokens : List Token}
    {restTokens : List (List Token)} (hfirst : LexesInBlock first firstTokens)
    (hrest : List.Forall₂ LexesInBlock rest restTokens) :
    LexesInBlock (.list none (first :: rest))
      (.blockSequenceStart :: (itemTokens (firstTokens :: restTokens) ++ [.blockEnd])) where
  chars indent marked := by
    rw [writeBlock_list, isPlainText_cons (by decide), isPlainText_cons (by decide),
      isPlainText_append]
    exact ⟨hfirst.chars _ _, chars_of_items hrest indent⟩
  starts indent marked after := by
    rw [writeBlock_list]
    exact (startsLine_item 0 _).token
  leads {c b indent marked k next} hindent hchars hnext hk hcolumn := by
    rw [writeBlock_list] at hchars
    simp only [List.cons_append, List.append_assoc] at hchars
    have hleads := leads_items hfirst hrest hindent hchars hnext (by omega) (Int.le_of_lt hcolumn)
    unfold LeadsToLine at hleads ⊢
    rwa [Blocks.close_add_openAt hcolumn hk] at hleads

/-- **Under a key a list stands at the column of the key**, and is no block of its own. -/
theorem lexesUnderKey_list {first : Outline} {rest : List Outline} {firstTokens : List Token}
    {restTokens : List (List Token)} (hfirst : LexesInBlock first firstTokens)
    (hrest : List.Forall₂ LexesInBlock rest restTokens) :
    LexesUnderKey (.list none (first :: rest)) (itemTokens (firstTokens :: restTokens)) where
  chars indent column := by
    rw [writeUnder_list, isPlainText_append, isPlainText_cons (by decide),
      isPlainText_cons (by decide), isPlainText_append]
    exact ⟨isPlainText_newLine indent, hfirst.chars _ _, chars_of_items hrest indent⟩
  starts indent column after := by
    rw [writeUnder_list]
    rfl
  reaches {c b indent column k next} hchars hnext hk hindent hcolumn := by
    rw [writeUnder_list] at hchars
    simp only [List.cons_append, List.append_assoc] at hchars
    refine reaches_newLine hchars (startsLine_item 0 _).token (by omega)
      fun c' hrest' hcolumn' => ?_
    have hleads := leads_items (b := b) hfirst hrest hcolumn' hrest' hnext hk (by omega)
    rwa [Blocks.openAt_of_le (by omega)] at hleads

/-! ## Maps -/

/-- **An entry is read as the given tokens**: a short key on its line, a long one behind a question
mark. -/
inductive LexesAsEntry : Outline × Outline → List Token → Prop
  | short {key : String} {o : Outline} {tokens : List Token} (printable : IsPrintable key)
    (simple : isSimpleKey (.scalar none (.text key)) = true) (value : LexesUnderKey o tokens) :
    LexesAsEntry (.scalar none (.text key), o) (.key :: textToken key :: .value :: tokens)
  | long {key : String} {o : Outline} {tokens : List Token} (printable : IsPrintable key)
    (simple : isSimpleKey (.scalar none (.text key)) = false) (value : LexesInBlock o tokens) :
    LexesAsEntry (.scalar none (.text key), o) (.key :: textToken key :: .value :: tokens)

theorem writeKey_text (key : String) (indent : Nat) :
    writeKey indent (.scalar none (.text key)) = writeText false indent indent key.toList := by
  simp only [writeKey, leadingMarks, marks, anchorMark, writeScalar, List.nil_append]

theorem writeEntry_short {key : String} (h : isSimpleKey (.scalar none (.text key)) = true)
    (o : Outline) (indent : Nat) :
    ∃ column, writeEntry indent (.scalar none (.text key), o)
      = writeText false indent indent key.toList ++ ':' :: writeUnder indent column o := by
  rw [writeEntry, if_pos h]
  simp only [writeKey_text]
  exact ⟨_, rfl⟩

theorem writeEntry_long {key : String} (h : isSimpleKey (.scalar none (.text key)) = false)
    (o : Outline) (indent : Nat) :
    writeEntry indent (.scalar none (.text key), o)
      = '?' :: ' ' :: (writeText true (indent + 2) (indent + 2) key.toList
        ++ (newLine indent ++ ':' :: ' ' :: writeBlock (indent + 2) indent o)) := by
  rw [writeEntry, if_neg (by rw [h]; exact Bool.false_ne_true), writeBlock_text]
  simp

theorem length_of_isSimpleKey {key : String} (h : isSimpleKey (.scalar none (.text key)) = true) :
    key.toList.length < 123 := by
  simp only [isSimpleKey, isSimpleScalar, Bool.and_eq_true, decide_eq_true_eq] at h
  have hlength : 0 + 5 + key.toList.length < 128 := h.2
  omega

/-- A short key, its colon and what stands under it. -/
theorem leads_shortEntry {key : String} {o : Outline} {tokens : List Token} {indent column : Nat}
    (hkey : IsPrintable key) (hsimple : isSimpleKey (.scalar none (.text key)) = true)
    (ho : LexesUnderKey o tokens) (hcolumn : c.column = indent)
    (hrest : c.rest = writeText false indent indent key.toList
      ++ ':' :: (writeUnder indent column o ++ (newLine k ++ next)))
    (hnext : StartsLine k next) (hk : k ≤ indent) (hindent : b.indent ≤ indent) :
    (inBlocks c b true none).LeadsToLine ((b.openAt indent .blockMappingStart).add
      (.key :: textToken key :: .value :: tokens)) k next := by
  have hspace := ho.starts indent column (newLine k ++ next)
  have hplain : ∀ x ∈ writeText false indent indent key.toList, isPlainChar x = true :=
    fun x hx => (isPlainChar_of_mem_writeText hkey hx).resolve_right fun h => Bool.false_ne_true h.1
  have hpos := length_writeText_pos hkey false indent indent
  have hlength := length_writeText_le hkey indent indent
  have hshort := length_of_isSimpleKey hsimple
  have hstep := step_key (b := b) hkey hrest hspace (by omega)
  have hpass := Cursor.advance_of_isPlainChar hplain hrest
  generalize c.advance (writeText false indent indent key.toList).length = c₁ at hstep hpass
  have hrest₁ : c₁.rest = ':' :: (writeUnder indent column o ++ (newLine k ++ next)) := by
    rw [hpass]
  have hcolon : c₁.advance 1 = _ := Cursor.step_of_isPlainChar (x := ':') (by decide) hrest₁
  have hmade := step_keyColon (c := c) (b := b) hrest₁ hspace (textToken key)
  rw [hcolumn] at hmade
  have hopen := Blocks.indent_add_openAt hindent .blockMappingStart [.key, textToken key, .value]
  have hreaches := ho.reaches (c := c₁.advance 1) (by rw [hcolon]) hnext hk hopen
    (by rw [hcolon, hpass]; simp only; omega)
  rw [Blocks.add_add] at hreaches
  -- the key has been read and may be one, until its colon makes it one
  refine leadsToLine_of_step hstep ?_ ⟨_, settles_key ?_ ?_ ?_ ?_, le_rfl,
    leadsToLine_of_step hmade ?_ hreaches⟩
  · show c₁.rest.length < c.rest.length
    rw [hrest, hrest₁, List.length_append]
    omega
  · rw [hpass]
    rfl
  · rw [hpass]
    show c.index + _ ≤ c.index + 1024
    omega
  · rw [hrest₁]
    exact fun x hx => Option.some.inj hx ▸ by decide
  · rw [hpass, Blocks.indent_add]
    simp only
    omega
  · show (c₁.advance 1).rest.length < c₁.rest.length
    rw [hcolon, hrest₁]
    exact Nat.lt_succ_self _

/-- A long key behind a question mark, and its value behind a colon at the same column. -/
theorem leads_longEntry {key : String} {o : Outline} {tokens : List Token} {indent : Nat}
    (hkey : IsPrintable key) (ho : LexesInBlock o tokens) (hcolumn : c.column = indent)
    (hrest : c.rest = '?' :: ' ' :: (writeText true (indent + 2) (indent + 2) key.toList
      ++ (newLine indent ++ ':' :: ' ' :: (writeBlock (indent + 2) indent o
        ++ (newLine k ++ next)))))
    (hnext : StartsLine k next) (hk : k ≤ indent) (hindent : b.indent ≤ indent) :
    (inBlocks c b true none).LeadsToLine ((b.openAt indent .blockMappingStart).add
      (.key :: textToken key :: .value :: tokens)) k next := by
  have hopen := fun tokens => Blocks.indent_add_openAt hindent .blockMappingStart tokens
  have hstep := step_questionMark (b := b) hrest
  rw [hcolumn] at hstep
  have hkeyLeads : (inBlocks c b true none).LeadsToLine
      ((b.openAt indent .blockMappingStart).add [.key, textToken key]) indent
      (':' :: ' ' :: (writeBlock (indent + 2) indent o ++ (newLine k ++ next))) := by
    refine leads_sign (by decide) hrest hstep (startsToken_writeText hkey _ _ _ _)
      (by rw [hopen]; omega) fun c₂ hrest₂ hcolumn₂ => ?_
    have hleads : (inBlocks c₂ ((b.openAt indent .blockMappingStart).add [.key]) true
        none).LeadsToLine _ _ _ := leads_text hkey hrest₂ (startsLine_colon _ _)
      (Int.le_of_eq (hopen [.key]).symm) (by rw [hopen]; omega) (by rw [hopen]; omega)
    rwa [Blocks.add_add] at hleads
  refine hkeyLeads.trans (Int.le_of_eq (hopen _)) fun c₁ hrest₁ hcolumn₁ => ?_
  have hcolon := step_colon (b := (b.openAt indent .blockMappingStart).add [.key, textToken key])
    hrest₁
  rw [hcolumn₁, Blocks.openAt_add_openAt hindent, Blocks.add_add] at hcolon
  refine leads_sign (by decide) hrest₁ hcolon (ho.starts _ _ _) (by rw [hopen]; omega)
    fun c₂ hrest₂ hcolumn₂ => ?_
  have hvalue := hopen ([.key, textToken key] ++ [.value])
  have hleads := ho.leads (by rw [hcolumn₂, hcolumn₁]) hrest₂ hnext
    (Int.le_trans (by omega) (Int.le_of_eq hvalue.symm)) (by rw [hvalue]; omega)
  rwa [Blocks.add_add] at hleads

variable {entry : Outline × Outline} {tokens : List Token}

/-- An entry and the line after it. -/
theorem leads_entry {indent : Nat} (h : LexesAsEntry entry tokens) (hcolumn : c.column = indent)
    (hrest : c.rest = writeEntry indent entry ++ (newLine k ++ next))
    (hnext : StartsLine k next) (hk : k ≤ indent) (hindent : b.indent ≤ indent) :
    (inBlocks c b true none).LeadsToLine
      ((b.openAt indent .blockMappingStart).add tokens) k next := by
  cases h with
  | @short key o tokens hkey hsimple ho =>
    obtain ⟨column, hentry⟩ := writeEntry_short hsimple o indent
    rw [hentry, List.append_assoc, List.cons_append] at hrest
    exact leads_shortEntry hkey hsimple ho hcolumn hrest hnext hk hindent
  | @long key o tokens hkey hsimple ho =>
    rw [writeEntry_long hsimple] at hrest
    simp only [List.cons_append, List.append_assoc] at hrest
    exact leads_longEntry hkey ho hcolumn hrest hnext hk hindent

/-- An entry starts a line. -/
theorem startsLine_entry (h : LexesAsEntry entry tokens) (k indent : Nat) (after : List Char) :
    StartsLine k (writeEntry indent entry ++ after) := by
  cases h with
  | @short key o tokens hkey hsimple ho =>
    obtain ⟨column, hentry⟩ := writeEntry_short hsimple o indent
    rw [hentry, List.append_assoc]
    refine ⟨startsToken_writeText hkey _ _ _ _, ?_⟩
    cases k with
    | zero =>
      rw [List.replicate_zero, List.nil_append, List.cons_append]
      exact atSeparator_key hkey _
    | succ k => exact atSeparator_blank _
  | @long key o tokens hkey hsimple ho =>
    rw [writeEntry_long hsimple]
    exact startsLine_questionMark k _

/-- **Entries one after the other**, at the column of the first. -/
theorem leads_entries {first : Outline × Outline} {firstTokens : List Token}
    {rest : List (Outline × Outline)} {restTokens : List (List Token)} {indent : Nat}
    (hfirst : LexesAsEntry first firstTokens) (hrest : List.Forall₂ LexesAsEntry rest restTokens)
    (hcolumn : c.column = indent)
    (hchars : c.rest = writeEntry indent first ++ (writeEntries indent rest ++ (newLine k ++ next)))
    (hnext : StartsLine k next) (hk : k ≤ indent) (hindent : b.indent ≤ indent) :
    (inBlocks c b true none).LeadsToLine ((b.openAt indent .blockMappingStart).add
      (firstTokens :: restTokens).flatten) k next := by
  induction hrest generalizing first firstTokens c b with
  | nil =>
    rw [writeEntries, List.nil_append] at hchars
    simpa using leads_entry hfirst hcolumn hchars hnext hk hindent
  | @cons entry tokens rest restTokens hentry _ ih =>
    rw [writeEntries] at hchars
    simp only [List.append_assoc] at hchars
    have hopen := Blocks.indent_add_openAt hindent .blockMappingStart firstTokens
    refine (leads_entry hfirst hcolumn hchars (startsLine_entry hentry _ _ _) le_rfl hindent).trans
      (Int.le_of_eq hopen) fun c₁ hrest₁ hcolumn₁ => ?_
    have hothers := ih hentry hcolumn₁ hrest₁ (Int.le_of_eq hopen)
    rwa [Blocks.openAt_add_openAt hindent, Blocks.add_add] at hothers

/-- What is written of an entry. -/
theorem chars_of_entry (h : LexesAsEntry entry tokens) (indent : Nat) :
    IsPlainText (writeEntry indent entry) := by
  cases h with
  | @short key o tokens hkey hsimple ho =>
    obtain ⟨column, hentry⟩ := writeEntry_short hsimple o indent
    rw [hentry, isPlainText_append, isPlainText_cons (by decide)]
    exact ⟨isPlainText_writeText hkey _ _ _, ho.chars _ _⟩
  | @long key o tokens hkey hsimple ho =>
    rw [writeEntry_long hsimple, isPlainText_cons (by decide), isPlainText_cons (by decide),
      isPlainText_append, isPlainText_append, isPlainText_cons (by decide),
      isPlainText_cons (by decide)]
    exact ⟨isPlainText_writeText hkey _ _ _, isPlainText_newLine indent, ho.chars _ _⟩

/-- What is written of entries. -/
theorem chars_of_entries {entries : List (Outline × Outline)} {tokens : List (List Token)}
    (h : List.Forall₂ LexesAsEntry entries tokens) (indent : Nat) :
    IsPlainText (writeEntries indent entries) := by
  induction h with
  | nil =>
    rw [writeEntries]
    exact List.forall_mem_nil _
  | cons hentry _ ih =>
    rw [writeEntries, List.append_assoc, isPlainText_append, isPlainText_append]
    exact ⟨isPlainText_newLine indent, chars_of_entry hentry indent, ih⟩

theorem writeBlock_map (first : Outline × Outline) (rest : List (Outline × Outline))
    (indent marked : Nat) :
    writeBlock indent marked (.map none false (first :: rest))
      = writeEntry indent first ++ writeEntries indent rest := by
  rw [writeBlock]
  rfl

theorem writeUnder_map (first : Outline × Outline) (rest : List (Outline × Outline))
    (indent column : Nat) :
    writeUnder indent column (.map none false (first :: rest))
      = newLine (indent + 2)
        ++ (writeEntry (indent + 2) first ++ writeEntries (indent + 2) rest) := by
  rw [writeUnder]
  simp [marks, anchorMark]

section

variable {first : Outline × Outline} {firstTokens : List Token} {rest : List (Outline × Outline)}
  {restTokens : List (List Token)}

/-- **A map is a block of its own**, with a start and an end. -/
theorem lexesInBlock_map (hfirst : LexesAsEntry first firstTokens)
    (hrest : List.Forall₂ LexesAsEntry rest restTokens) :
    LexesInBlock (.map none false (first :: rest))
      (.blockMappingStart :: ((firstTokens :: restTokens).flatten ++ [.blockEnd])) where
  chars indent marked := by
    rw [writeBlock_map, isPlainText_append]
    exact ⟨chars_of_entry hfirst indent, chars_of_entries hrest indent⟩
  starts indent marked after := by
    rw [writeBlock_map, List.append_assoc]
    exact (startsLine_entry hfirst 0 indent _).token
  leads {c b indent marked k next} hindent hchars hnext hk hcolumn := by
    rw [writeBlock_map, List.append_assoc] at hchars
    have hleads := leads_entries hfirst hrest hindent hchars hnext (by omega) (Int.le_of_lt hcolumn)
    unfold LeadsToLine at hleads ⊢
    rwa [Blocks.close_add_openAt hcolumn hk] at hleads

/-- **Under a key a map stands two columns deeper**, a block of its own as anywhere. -/
theorem lexesUnderKey_map (hfirst : LexesAsEntry first firstTokens)
    (hrest : List.Forall₂ LexesAsEntry rest restTokens) :
    LexesUnderKey (.map none false (first :: rest))
      (.blockMappingStart :: ((firstTokens :: restTokens).flatten ++ [.blockEnd])) where
  chars indent column := by
    rw [writeUnder_map, isPlainText_append, isPlainText_append]
    exact ⟨isPlainText_newLine _, chars_of_entry hfirst _, chars_of_entries hrest _⟩
  starts indent column after := by
    rw [writeUnder_map]
    rfl
  reaches {c b indent column k next} hchars hnext hk hindent hcolumn := by
    rw [writeUnder_map, List.append_assoc, List.append_assoc] at hchars
    refine reaches_newLine hchars (startsLine_entry hfirst 0 _ _).token (by omega)
      fun c' hrest' hcolumn' => ?_
    have hleads := leads_entries (b := b) hfirst hrest hcolumn' hrest' hnext (by omega) (by omega)
    unfold LeadsToLine at hleads ⊢
    rwa [Blocks.close_add_openAt (by omega) (by omega)] at hleads

end

end Lexer

end SlotSafe.Yaml
