import SlotSafe.Proofs.BuiltDocuments
import SlotSafe.Proofs.LexedBlocks
import SlotSafe.Yaml.Reader

/-!
# Documents of texts come back from YAML

A list or map of texts of printable ASCII is written completely, and what is written is read as the
same document (`exists_render`), whatever its texts look like: those that would be read as something
else without quotes stand between quotes, those that are too long for a line are folded and joined
again, and a name that is too long for a key on one line stands behind a question mark.

The induction is on the height, as for JSON. What is known of a part is more, because its text and
its tokens depend on the place where it stands (`IsTranscript`): what is written of it is read as
tokens, and the tokens are read as nodes, once for a place of its own and once for the place behind
a key. What holds for all readings of tokens and nodes is proved for these alone, so the induction
only puts the two together.
-/

namespace SlotSafe.Yaml

open Document

/-- **A document of printable texts**, in which lists and maps lie inside one another at most
`height` times. -/
inductive OfPrintable : (height : Nat) → Document → Prop
  | text {height : Nat} {s : String} (printable : IsPrintable s) : OfPrintable height (.text s)
  | row {height : Nat} {items : List Document} (parts : ∀ item ∈ items, OfPrintable height item) :
    OfPrintable (height + 1) (.row items)
  | record {height : Nat} {fields : List (String × Document)} (names : (fields.map (·.1)).Nodup)
    (printable : ∀ field ∈ fields, IsPrintable field.1)
    (parts : ∀ field ∈ fields, OfPrintable height field.2) :
    OfPrintable (height + 1) (.record fields)

/-! ## The whole text -/

namespace Lexer

variable {b : Blocks} {s : List Char}

/-- **A text whose only line goes on to its end**: all blocks that are left open are ended there. -/
theorem tokens_of_leads (hs : StartsToken s)
    (h : (inBlocks (.start s) ⟨-1, [], []⟩ true none).LeadsToLine b 0 []) :
    Yaml.tokens s none = (closeBlocks (-1) (b.close 0).indent (b.close 0).outer
      (b.close 0).tokens).2.2.reverse := by
  obtain ⟨c, hrest, -, hleads⟩ := h
  have hstart : (inBlocks (.start s) ⟨-1, [], []⟩ true none).Settles
      (inBlocks (.start s) ⟨-1, [], []⟩ true none) :=
    settles_here (b := ⟨-1, [], []⟩) (fun _ hk => nomatch hk) hs
  exact run_of_leads hstart hleads hrest rfl (Nat.lt_succ_self _)

/-- A block that starts at the first column ends with the text. -/
theorem tokens_of_openAt {start : Token} {found : List Token} (hs : StartsToken s)
    (h : (inBlocks (.start s) ⟨-1, [], []⟩ true none).LeadsToLine
      ((Blocks.openAt ⟨-1, [], []⟩ 0 start).add found) 0 []) :
    Yaml.tokens s none = start :: (found ++ [.blockEnd]) := by
  have hclose : ((Blocks.openAt ⟨-1, [], []⟩ 0 start).add found).close 0
      = (Blocks.openAt ⟨-1, [], []⟩ 0 start).add found :=
    Blocks.close_of_le (Int.le_of_eq (Blocks.indent_add_openAt (by decide) start found))
  -- the last line closes nothing at its column, so only the end of the text ends the block
  rw [tokens_of_leads hs h, hclose, Blocks.openAt_of_lt (by decide)]
  simp [closeBlocks, Blocks.add]

/-- Only a scalar is written otherwise as a whole text. -/
theorem render_of_ne_scalar {o : Outline} (h : ∀ anchor d, o ≠ .scalar anchor d) :
    o.render = writeBlock 0 0 o ++ newLine 0 := by
  cases o
  all_goals first
    | exact absurd rfl (h _ _)
    | simp [Outline.render, endsOpen, newLine]

/-- **What a whole text is read as.** -/
structure LexesAtRoot (o : Outline) (found : List Token) : Prop where
  rendered : o.render = writeBlock 0 0 o ++ newLine 0
  tokens : Yaml.tokens (writeBlock 0 0 o ++ newLine 0) none = found

theorem lexesAtRoot_list {first : Outline} {rest : List Outline} {firstTokens : List Token}
    {restTokens : List (List Token)} (hfirst : LexesInBlock first firstTokens)
    (hrest : List.Forall₂ LexesInBlock rest restTokens) :
    LexesAtRoot (.list none (first :: rest))
      (.blockSequenceStart :: (itemTokens (firstTokens :: restTokens) ++ [.blockEnd])) where
  rendered := render_of_ne_scalar fun _ _ h => nomatch h
  tokens := by
    refine tokens_of_openAt ((lexesInBlock_list hfirst hrest).starts 0 0 _)
      (leads_items hfirst hrest rfl ?_ startsLine_nil le_rfl (by decide))
    show writeBlock 0 0 (.list none (first :: rest)) ++ newLine 0 = _
    rw [writeBlock_list]
    simp

theorem lexesAtRoot_map {first : Outline × Outline} {rest : List (Outline × Outline)}
    {firstTokens : List Token} {restTokens : List (List Token)}
    (hfirst : LexesAsEntry first firstTokens)
    (hrest : List.Forall₂ LexesAsEntry rest restTokens) :
    LexesAtRoot (.map none false (first :: rest))
      (.blockMappingStart :: ((firstTokens :: restTokens).flatten ++ [.blockEnd])) where
  rendered := render_of_ne_scalar fun _ _ h => nomatch h
  tokens := by
    refine tokens_of_openAt ((lexesInBlock_map hfirst hrest).starts 0 0 _)
      (leads_entries hfirst hrest rfl ?_ startsLine_nil le_rfl (by decide))
    show writeBlock 0 0 (.map none false (first :: rest)) ++ newLine 0 = _
    rw [writeBlock_map]
    simp

theorem lexesAtRoot_brackets {opening closing : Char} {start finish : Token} {o : Outline}
    (h : IsBrackets opening closing start finish)
    (ho : writeBlock 0 0 o = [opening, closing]) (hscalar : ∀ anchor d, o ≠ .scalar anchor d) :
    LexesAtRoot o [start, finish] where
  rendered := render_of_ne_scalar hscalar
  tokens := by
    rw [ho]
    exact tokens_of_leads (h.starts _) (leads_brackets h.opens h.closes h.plain h.closing rfl
      startsLine_nil (by simp [Cursor.start]))

end Lexer

open Lexer

theorem isAllowed_of_isPlainChar {x : Char} (h : isPlainChar x = true ∨ x = '\n') :
    isAllowed x = true := by
  obtain hplain | rfl := h
  · simp only [isPlainChar, Bool.and_eq_true, decide_eq_true_eq] at hplain
    simp [isAllowed, hplain]
  · rfl

/-- Nothing in a text of lines of printable ASCII cuts it off. -/
theorem tokensUpTo_of_isPlainText {s : List Char} (h : IsPlainText s) :
    tokensUpTo s none = tokens s none := by
  have hcut : unprintableCut? s = none := by
    rw [unprintableCut?, Option.map_eq_none_iff, List.findIdx?_eq_none_iff]
    intro x hx
    rw [isAllowed_of_isPlainChar (h x hx)]
    rfl
  rw [tokensUpTo, hcut]
  rfl

/-! ## Transcripts -/

/-- How a document is written and as which tokens it is read, in a place of its own and behind a
key. -/
structure Transcript where
  outline : Outline
  inBlock : List Token
  underKey : List Token
  deriving Inhabited

variable [NestingLimits]

/-- **The transcript of a document**: the writer puts the outline out, what is written of it is read
as the tokens, and the tokens are read as the document. -/
structure IsTranscript (height : Nat) (d : Document) (t : Transcript) : Prop where
  surveyed : ∀ depth survey, depth + height ≤ NestingLimits.writing .yaml →
    Survey.add depth d survey = .ok survey
  traced : ∀ survey done, Outline.trace survey d done = (t.outline, done)
  lexesInBlock : LexesInBlock t.outline t.inBlock
  lexesUnderKey : LexesUnderKey t.outline t.underKey
  lexesAtRoot : d.isText = false → LexesAtRoot t.outline t.inBlock
  parsesInBlock : ∀ context, context ≠ .flow → ParsesAs context height t.inBlock d
  parsesUnderKey : ParsesAs .entry height t.underKey d

variable {height : Nat}

/-- What has no identity is surveyed with its parts, where there is room for them. -/
theorem visit_none {depth : Nat} (h : depth < NestingLimits.writing .yaml) (survey : Survey)
    (parts : Survey → Except Obstacle Survey) :
    survey.visit depth none parts = parts survey :=
  if_neg (Nat.not_le.mpr h)

theorem isTranscript_text {s : String} (hs : IsPrintable s) :
    IsTranscript height (.text s) ⟨.scalar none (.text s), [textToken s], [textToken s]⟩ where
  surveyed _ _ _ := rfl
  traced _ _ := rfl
  lexesInBlock := lexesInBlock_text hs
  lexesUnderKey := lexesUnderKey_text hs
  lexesAtRoot h := absurd h.symm Bool.false_ne_true
  parsesInBlock context _ := parsesAs_text hs context height
  parsesUnderKey := parsesAs_text hs .entry height

/-! ### Lists -/

section

variable {items : List Document} {transcript : Document → Transcript}

theorem addItems_of_transcripts
    (h : ∀ item ∈ items, IsTranscript height item (transcript item)) {depth : Nat}
    (hdepth : depth + height ≤ NestingLimits.writing .yaml) (survey : Survey) :
    Survey.addItems depth items survey = .ok survey := by
  induction items with
  | nil => rfl
  | cons item items ih =>
    rw [List.forall_mem_cons] at h
    rw [Survey.addItems, h.1.surveyed depth survey hdepth]
    exact ih h.2

theorem traceItems_of_transcripts (h : ∀ item ∈ items, IsTranscript height item (transcript item))
    (survey : Survey) (done : Outline.Done) : Outline.traceItems survey items done
      = (items.map fun item => (transcript item).outline, done) := by
  induction items with
  | nil => rfl
  | cons item items ih =>
    rw [List.forall_mem_cons] at h
    rw [Outline.traceItems, h.1.traced]
    simp only [ih h.2]
    rfl

end

theorem isTranscript_emptyList :
    IsTranscript (height + 1) (.row [])
      ⟨.list none [], [.flowSequenceStart, .flowSequenceEnd],
        [.flowSequenceStart, .flowSequenceEnd]⟩ where
  surveyed depth survey hdepth := by
    rw [row, Survey.add, visit_none (by omega)]
    rfl
  traced _ _ := rfl
  lexesInBlock := lexesInBlock_emptyList
  lexesUnderKey := lexesUnderKey_emptyList
  lexesAtRoot _ := lexesAtRoot_brackets isBrackets_list (by rw [writeBlock]; rfl)
    fun _ _ h => nomatch h
  parsesInBlock context _ := parsesAs_emptyList context _
  parsesUnderKey := parsesAs_emptyList .entry _

/-- **A list has a transcript** when its items do. -/
theorem exists_isTranscript_row {items : List Document}
    (h : ∀ item ∈ items, ∃ t, IsTranscript height item t) :
    ∃ t, IsTranscript (height + 1) (.row items) t := by
  obtain _ | ⟨first, rest⟩ := items
  · exact ⟨_, isTranscript_emptyList⟩
  choose! transcript htranscript using h
  have hfirst := htranscript first List.mem_cons_self
  have hrest : List.Forall₂ LexesInBlock (rest.map fun item => (transcript item).outline)
      (rest.map fun item => (transcript item).inBlock) := by
    rw [List.forall₂_map_left_iff, List.forall₂_map_right_iff, List.forall₂_same]
    exact fun item hitem => (htranscript item (List.mem_cons_of_mem _ hitem)).lexesInBlock
  have hparses : ∀ item ∈ (first :: rest).map fun item => ((transcript item).inBlock, item),
      ParsesAs .block height item.1 item.2 := by
    intro _ hmem
    obtain ⟨item, hitem, rfl⟩ := List.mem_map.mp hmem
    exact (htranscript item hitem).parsesInBlock .block (by decide)
  have htokens : ((first :: rest).map fun item => ((transcript item).inBlock, item)).map (·.1)
      = (first :: rest).map fun item => (transcript item).inBlock := List.map_map
  have hitems : ((first :: rest).map fun item => ((transcript item).inBlock, item)).map (·.2)
      = first :: rest := by rw [List.map_map]; exact List.map_id _
  refine ⟨⟨.list none ((first :: rest).map fun item => (transcript item).outline), _, _⟩, ?_, ?_,
    lexesInBlock_list hfirst.lexesInBlock hrest, lexesUnderKey_list hfirst.lexesInBlock hrest,
    fun _ => lexesAtRoot_list hfirst.lexesInBlock hrest, fun context hcontext => ?_, ?_⟩
  · intro depth survey hdepth
    rw [row, Survey.add, visit_none (by omega)]
    exact addItems_of_transcripts htranscript (by omega) survey
  · intro survey done
    simp only [row, Outline.trace, Outline.once, Survey.anchor?, Option.bind_none,
      traceItems_of_transcripts htranscript]
  · have hlist := parsesAs_list hcontext hparses
    rwa [htokens, hitems] at hlist
  · have hlist := parsesAs_flatList (by simp) hparses
    rwa [htokens, hitems] at hlist

/-! ### Maps -/

/-- The tokens of the value of an entry: a value whose key stands on one line comes behind that key,
any other has a place of its own. -/
def Transcript.valueTokens (t : Transcript) (name : String) : List Token :=
  if isSimpleKey (.scalar none (.text name)) then t.underKey else t.inBlock

theorem IsTranscript.lexesAsEntry {d : Document} {t : Transcript} (h : IsTranscript height d t)
    {name : String} (hname : IsPrintable name) :
    LexesAsEntry (.scalar none (.text name), t.outline)
      (.key :: textToken name :: .value :: t.valueTokens name) := by
  unfold Transcript.valueTokens
  split
  · next hsimple => exact .short hname hsimple h.lexesUnderKey
  · next hsimple => exact .long hname (Bool.eq_false_iff.mpr hsimple) h.lexesInBlock

theorem IsTranscript.parsesAsValue {d : Document} {t : Transcript} (h : IsTranscript height d t)
    (name : String) : ParsesAs .entry height (t.valueTokens name) d := by
  unfold Transcript.valueTokens
  split
  · exact h.parsesUnderKey
  · exact h.parsesInBlock .entry (by decide)

section

variable {fields : List (String × Document)} {transcript : String × Document → Transcript}

theorem addEntries_of_transcripts
    (h : ∀ field ∈ fields, IsTranscript height field.2 (transcript field)) {depth : Nat}
    (hdepth : depth + height ≤ NestingLimits.writing .yaml) (survey : Survey) :
    Survey.addEntries depth (fields.map fun field => (.text field.1, field.2)) survey
      = .ok survey := by
  induction fields with
  | nil => rfl
  | cons field fields ih =>
    rw [List.forall_mem_cons] at h
    rw [List.map_cons, Survey.addEntries]
    show (Survey.add depth field.2 survey >>= _) = _
    rw [h.1.surveyed depth survey hdepth]
    exact ih h.2

theorem traceEntries_of_transcripts
    (h : ∀ field ∈ fields, IsTranscript height field.2 (transcript field)) (survey : Survey)
    (done : Outline.Done) :
    Outline.traceEntries survey (fields.map fun field => (.text field.1, field.2)) done
      = (fields.map fun field => (.scalar none (.text field.1), (transcript field).outline),
        done) := by
  induction fields with
  | nil => rfl
  | cons field fields ih =>
    rw [List.forall_mem_cons] at h
    have hkey : Outline.trace survey (.text field.1) done
        = (.scalar none (.text field.1), done) := rfl
    rw [List.map_cons, Outline.traceEntries, hkey]
    simp only [h.1.traced, ih h.2]
    rfl

end

theorem isTranscript_emptyMap :
    IsTranscript (height + 1) (.record [])
      ⟨.map none false [], [.flowMappingStart, .flowMappingEnd],
        [.flowMappingStart, .flowMappingEnd]⟩ where
  surveyed depth survey hdepth := by
    rw [record, Survey.add, visit_none (by omega)]
    rfl
  traced _ _ := rfl
  lexesInBlock := lexesInBlock_emptyMap
  lexesUnderKey := lexesUnderKey_emptyMap
  lexesAtRoot _ := lexesAtRoot_brackets isBrackets_map (by rw [writeBlock]; rfl)
    fun _ _ h => nomatch h
  parsesInBlock context _ := parsesAs_emptyMap context _
  parsesUnderKey := parsesAs_emptyMap .entry _

/-- **A map of names has a transcript** when its values do. -/
theorem exists_isTranscript_record {fields : List (String × Document)}
    (hnames : (fields.map (·.1)).Nodup) (hprintable : ∀ field ∈ fields, IsPrintable field.1)
    (h : ∀ field ∈ fields, ∃ t, IsTranscript height field.2 t) :
    ∃ t, IsTranscript (height + 1) (.record fields) t := by
  obtain _ | ⟨first, rest⟩ := fields
  · exact ⟨_, isTranscript_emptyMap⟩
  choose! transcript htranscript using h
  have hentry : ∀ field ∈ first :: rest,
      LexesAsEntry (.scalar none (.text field.1), (transcript field).outline) _ :=
    fun field hfield => (htranscript field hfield).lexesAsEntry (hprintable field hfield)
  have hfirst := hentry first List.mem_cons_self
  have hrest : List.Forall₂ LexesAsEntry
      (rest.map fun field => (.scalar none (.text field.1), (transcript field).outline))
      (rest.map fun field =>
        .key :: textToken field.1 :: .value :: (transcript field).valueTokens field.1) := by
    rw [List.forall₂_map_left_iff, List.forall₂_map_right_iff, List.forall₂_same]
    exact fun field hfield => hentry field (List.mem_cons_of_mem _ hfield)
  -- which tokens the value has depends on its key, but they are read as the value in either case
  have hvalues : ∀ entry ∈ (first :: rest).map fun field =>
      ((transcript field).valueTokens field.1, field),
      IsPrintable entry.2.1 ∧ ParsesAs .entry height entry.1 entry.2.2 := by
    intro _ hmem
    obtain ⟨field, hfield, rfl⟩ := List.mem_map.mp hmem
    exact ⟨hprintable field hfield, (htranscript field hfield).parsesAsValue field.1⟩
  have hparses : ∀ context, context ≠ .flow → ParsesAs context (height + 1) _ _ :=
    fun context hcontext => parsesAs_map hcontext (by rwa [List.map_map]) hvalues
  have htokens : entryTokens ((first :: rest).map fun field =>
        ((transcript field).valueTokens field.1, field))
      = ((first :: rest).map fun field =>
        .key :: textToken field.1 :: .value :: (transcript field).valueTokens field.1).flatten := by
    rw [entryTokens, List.flatMap_map]
    rfl
  have hfields : ((first :: rest).map fun field =>
      ((transcript field).valueTokens field.1, field)).map (·.2) = first :: rest := by
    rw [List.map_map]
    exact List.map_id _
  rw [htokens, hfields] at hparses
  refine ⟨⟨.map none false ((first :: rest).map fun field =>
    (.scalar none (.text field.1), (transcript field).outline)), _, _⟩, ?_, ?_,
    lexesInBlock_map hfirst hrest, lexesUnderKey_map hfirst hrest,
    fun _ => lexesAtRoot_map hfirst hrest, hparses, hparses .entry (by decide)⟩
  · intro depth survey hdepth
    rw [record, Survey.add, visit_none (by omega)]
    exact addEntries_of_transcripts htranscript (by omega) survey
  · intro survey done
    simp only [record, Outline.trace, Outline.once, Survey.anchor?, Option.bind_none,
      traceEntries_of_transcripts htranscript]

/-! ## Documents of texts -/

/-- **A document of printable texts has a transcript.** -/
theorem exists_isTranscript {d : Document} (h : OfPrintable height d) :
    ∃ t, IsTranscript height d t := by
  induction h with
  | text hs => exact ⟨_, isTranscript_text hs⟩
  | row _ ih => exact exists_isTranscript_row ih
  | record hnames hprintable _ ih => exact exists_isTranscript_record hnames hprintable ih

/-- **What is written of a list or map of printable texts is that list or map** to every reader. -/
theorem exists_render {d : Document} (h : OfPrintable height d)
    (hparts : d.isText = false) (hwriting : height ≤ NestingLimits.writing .yaml)
    (hreading : height < NestingLimits.reading .yaml) :
    ∃ chars, render d = .say chars ∧ IsPlainText chars
      ∧ ∀ reading, ∃ found, ComesBackAs d found ∧ read reading chars none = .ok found := by
  obtain ⟨t, ht⟩ := exists_isTranscript h
  obtain ⟨hrendered, htokens⟩ := ht.lexesAtRoot hparts
  have houtline : Outline.ofDocument d = .ok t.outline := by
    rw [Outline.ofDocument, ht.surveyed 0 _ (by omega)]
    show Except.ok (Outline.trace Survey.start d []).1 = _
    rw [ht.traced]
  have hplain : IsPlainText (writeBlock 0 0 t.outline ++ newLine 0) :=
    isPlainText_append.mpr ⟨ht.lexesInBlock.chars 0 0, isPlainText_newLine 0⟩
  obtain ⟨nodes, hgraph, hrepresents⟩ := (ht.parsesInBlock .block (by decide)).exists_graph
    hreading
  refine ⟨writeBlock 0 0 t.outline ++ newLine 0, ?_, hplain, fun reading => ?_⟩
  · rw [render, houtline, ← hrendered]
    rfl
  · obtain ⟨found, hfound, hback⟩ := hrepresents.exists_document reading
    refine ⟨found, hback, ?_⟩
    rw [read, tokensUpTo_of_isPlainText hplain, htokens, hgraph]
    exact hfound

end SlotSafe.Yaml
