import SlotSafe.Json.Writer
import SlotSafe.Proofs.EscapedTexts
import SlotSafe.Proofs.Success
import SlotSafe.Proofs.Tables

/-!
# Documents of texts come back from JSON

A document that is made of texts, lists, and maps with names as keys is written completely, and what
is written is read as the same document (`exists_isTranscript`, `exists_render`). Only the identities
are new: the reader numbers the lists and maps by their places.

Two things limit this. Neither the writer nor the reader follows lists and maps past the nesting
limit, so a document of texts carries its **height** (`Document.OfTexts`), and the depth at which it
stands must leave room for it. And a name must not stand twice in a map, where the reader would keep
only the last value.

The induction is on the height. At each step a list or map is written as its parts on lines of their
own, and the parts are known to be read back wherever they stand (`IsTranscript.reads` holds whatever
follows), so reading the lines is an induction over the parts alone.
-/

namespace SlotSafe

namespace Document

/-- **A document of texts**: a text, or a list or a map of names, in which lists and maps lie inside
one another at most `height` times. -/
inductive OfTexts : (height : Nat) → Document → Prop
  | text {height : Nat} (s : String) : OfTexts height (.text s)
  | row {height : Nat} {items : List Document} (parts : ∀ item ∈ items, OfTexts height item) :
    OfTexts (height + 1) (.row items)
  | record {height : Nat} {fields : List (String × Document)} (names : (fields.map (·.1)).Nodup)
    (parts : ∀ field ∈ fields, OfTexts height field.2) : OfTexts (height + 1) (.record fields)

mutual

/-- **A document that is another one up to identities**, which the second may have. -/
inductive ComesBackAs : Document → Document → Prop
  | text (s : String) : ComesBackAs (.text s) (.text s)
  | list (id : Option Identity) {items found : List Document}
    (parts : List.Forall₂ ComesBackAs items found) : ComesBackAs (.list none items) (.list id found)
  | map (id : Option Identity) {entries found : List (Document × Document)}
    (parts : List.Forall₂ EntryComesBackAs entries found) :
    ComesBackAs (.map none entries) (.map id found)

/-- An entry that is another one up to the identities in its value. -/
inductive EntryComesBackAs : Document × Document → Document × Document → Prop
  | entry (key : Document) {value found : Document} (back : ComesBackAs value found) :
    EntryComesBackAs (key, value) (key, found)

end

/-- The keys are the same. -/
theorem keys_of_comeBack {entries found : List (Document × Document)}
    (h : List.Forall₂ EntryComesBackAs entries found) :
    found.map (·.1) = entries.map (·.1) := by
  induction h with
  | nil => rfl
  | cons hfirst _ ih =>
    obtain ⟨key, -⟩ := hfirst
    rw [List.map_cons, List.map_cons, ih]

theorem distinctKeys_of_comeBack {fields : List (String × Document)}
    {found : List (Document × Document)} (hnames : (fields.map (·.1)).Nodup)
    (h : List.Forall₂ EntryComesBackAs (fields.map fun field => (.text field.1, field.2)) found) :
    Table.DistinctKeys (found.map (·.1)) := by
  have hkeys : found.map (·.1) = (fields.map (·.1)).map Document.text := by
    rw [keys_of_comeBack h, List.map_map, List.map_map]
    rfl
  rw [hkeys]
  exact Table.distinctKeys_text_iff.mpr hnames

end Document

namespace Json

open Document

/-! ## Blanks -/

theorem skipBlank_cons {c : Char} (h : isBlankChar c = false) (s : List Char) :
    skipBlank (c :: s) = c :: s := by
  unfold skipBlank
  rw [List.dropWhile_cons, h]
  rfl

/-- Lines may begin as deep as they like. -/
theorem skipBlank_newLine (depth : Nat) (s : List Char) :
    skipBlank (newLine depth ++ s) = skipBlank s := by
  have hblank : ∀ n, skipBlank (List.replicate n ' ' ++ s) = skipBlank s := by
    intro n
    induction n with
    | zero => rfl
    | succ n ih => exact ih
  exact hblank _

theorem isPlain_of_mem_newLine {depth : Nat} {c : Char} (h : c ∈ newLine depth) : IsPlain c := by
  obtain rfl | hmem := List.mem_cons.mp h
  · decide
  · rw [List.eq_of_mem_replicate hmem]
    decide

/-! ## Lines -/

/-- The lines of all parts but the first. -/
def moreLines (depth : Nat) (parts : List (List Char)) : List Char :=
  parts.flatMap fun part => ',' :: newLine depth ++ part

variable {depth : Nat}

theorem moreLines_cons (part : List Char) (parts : List (List Char)) (after : List Char) :
    moreLines depth (part :: parts) ++ after
      = ',' :: (newLine depth ++ (part ++ (moreLines depth parts ++ after))) := by
  simp [moreLines]

theorem length_moreLines_cons (depth : Nat) (part : List Char) (parts : List (List Char)) :
    part.length + (moreLines depth parts).length < (moreLines depth (part :: parts)).length := by
  simp only [moreLines, List.flatMap_cons, List.length_append, List.length_cons]
  omega

theorem isPlain_of_mem_moreLines {parts : List (List Char)}
    (h : ∀ part ∈ parts, ∀ c ∈ part, IsPlain c) : ∀ c ∈ moreLines depth parts, IsPlain c := by
  intro c hc
  obtain ⟨part, hpart, hmem⟩ := List.mem_flatMap.mp hc
  obtain hmem | hmem := List.mem_append.mp hmem
  · obtain rfl | hmem := List.mem_cons.mp hmem
    · decide
    · exact isPlain_of_mem_newLine hmem
  · exact h part hpart c hmem

/-- The parts of a list or map between its brackets, on lines of their own. -/
def bracketed (depth : Nat) (opening closing : Char) (first : List Char)
    (others : List (List Char)) : List Char :=
  opening :: (newLine (depth + 1) ++ (first ++ (moreLines (depth + 1) others
    ++ (newLine depth ++ [closing]))))

theorem bracketed_append (depth : Nat) (opening closing : Char) (first : List Char)
    (others : List (List Char)) (after : List Char) :
    bracketed depth opening closing first others ++ after
      = opening :: (newLine (depth + 1) ++ (first ++ (moreLines (depth + 1) others
        ++ (newLine depth ++ closing :: after)))) := by
  simp [bracketed]

theorem length_lt_of_bracketed {opening closing : Char} {first : List Char}
    {others : List (List Char)} {fuel : Nat}
    (h : (bracketed depth opening closing first others).length ≤ fuel + 1) :
    (first ++ moreLines (depth + 1) others).length < fuel := by
  simp only [bracketed, List.length_append, List.length_cons] at h ⊢
  omega

theorem isPlain_of_mem_bracketed {opening closing : Char} {first : List Char}
    {others : List (List Char)} (hopening : IsPlain opening) (hclosing : IsPlain closing)
    (h : ∀ part ∈ first :: others, ∀ c ∈ part, IsPlain c) :
    ∀ c ∈ bracketed depth opening closing first others, IsPlain c := by
  rw [List.forall_mem_cons] at h
  simp only [bracketed, List.forall_mem_cons, List.forall_mem_append]
  exact ⟨hopening, fun _ => isPlain_of_mem_newLine, h.1, isPlain_of_mem_moreLines h.2,
    fun _ => isPlain_of_mem_newLine, hclosing, List.forall_mem_nil _⟩

/-! ## Transcripts -/

variable [NestingLimits]

/-- How many lists and maps may lie inside one another in what is written and read again. -/
def room : Nat := min (NestingLimits.writing .json) (NestingLimits.reading .json)

theorem eight_le_room : 8 ≤ room :=
  Nat.le_min.mpr ⟨NestingLimits.eight_le_writing .json, NestingLimits.eight_le_reading .json⟩

/-- **The text of a document at a depth**: it is what the writer puts out, and the reader finds the
document in it, whatever follows. -/
structure IsTranscript (depth : Nat) (d : Document) (chars : List Char) : Prop where
  separated : ∀ start, separator start d = .say start
  written : ∀ around, write depth around d = .say chars
  plain : ∀ c ∈ chars, IsPlain c
  /-- No blank, and nothing that ends a list or map, stands at its beginning. -/
  begins : ∃ c rest, chars = c :: rest ∧ c ∈ ['"', '[', '\x7b']
  /-- It is not taken for a text with surrogates in it, whatever it stands under. -/
  paired : ∀ key after, readContent? key (chars ++ after) = none
  reads : ∀ reading fuel after, chars.length ≤ fuel →
    ∃ found, ComesBackAs d found ∧ readValue reading fuel depth (chars ++ after) = .ok (found, after)

/-- The text of an entry: the name between quotes, and the text of the value. -/
def IsEntryTranscript (depth : Nat) (field : String × Document) (chars : List Char) : Prop :=
  ∃ value, IsTranscript depth field.2 value
    ∧ chars = writeText field.1.toList ++ [':', ' '] ++ value

theorem IsTranscript.skipBlank {d : Document} {chars : List Char}
    (h : IsTranscript depth d chars) (after : List Char) :
    skipBlank (chars ++ after) = chars ++ after := by
  obtain ⟨c, rest, rfl, hmem⟩ := h.begins
  have hblank : ∀ c ∈ ['"', '[', '\x7b'], isBlankChar c = false :=
    List.forall_iff_forall_mem.mp (by decide)
  exact skipBlank_cons (hblank c hmem) _

theorem isTranscript_text (s : String) : IsTranscript depth (.text s) (writeText s.toList) where
  separated _ := rfl
  written _ := rfl
  plain _ hc := isPlain_of_mem_writeText hc
  begins := ⟨'"', _, rfl, by decide⟩
  paired key := readContent?_writeText key _
  reads := by
    intro reading fuel after hfuel
    obtain ⟨inside, hinside, hread⟩ :=
      readText_writeText (writeText s.toList ++ after).length s.toList after
    obtain _ | fuel := fuel
    · exact absurd hfuel (by simp [writeText])
    · refine ⟨.text s, .text s, ?_⟩
      rw [hinside] at hread ⊢
      rw [readValue]
      simp only [hread, bind, Except.bind, String.ofList_toList]

/-! ## Lists -/

theorem writeItems_of_transcripts {items : List Document} {texts : List (List Char)}
    (h : List.Forall₂ (IsTranscript depth) items texts) (around : List Identity) :
    writeItems depth around items = .say (moreLines depth texts) := by
  induction h with
  | nil => rfl
  | @cons item text items texts hfirst hrest ih =>
    rw [writeItems, hfirst.separated, hfirst.written, ih]
    rfl

/-- **The items of a list come back** from their lines. -/
theorem readItems_of_transcripts {items : List Document} {texts : List (List Char)}
    (h : List.Forall₂ (IsTranscript depth) items texts) {first : Document} {text : List Char}
    (hfirst : IsTranscript depth first text) (reading fuel end' : Nat) (after : List Char)
    (hfuel : (text ++ moreLines depth texts).length < fuel) :
    ∃ found, List.Forall₂ ComesBackAs (first :: items) found
      ∧ readItems reading fuel depth
        (text ++ (moreLines depth texts ++ (newLine end' ++ ']' :: after))) = .ok (found, after) := by
  induction h generalizing first text fuel with
  | nil =>
    obtain _ | fuel := fuel
    · exact absurd hfuel (Nat.not_lt_zero _)
    rw [List.length_append] at hfuel
    obtain ⟨found, hback, hread⟩ := hfirst.reads reading fuel
      (newLine end' ++ ']' :: after) (by omega)
    refine ⟨[found], .cons hback .nil, ?_⟩
    show readItems _ _ _ (text ++ (newLine end' ++ ']' :: after)) = _
    rw [readItems, hread]
    simp only [bind, Except.bind, skipBlank_newLine]
    rfl
  | @cons item text' items texts hitem hrest ih =>
    obtain _ | fuel := fuel
    · exact absurd hfuel (Nat.not_lt_zero _)
    have hlonger := length_moreLines_cons depth text' texts
    rw [List.length_append] at hfuel
    obtain ⟨found, hback, hread⟩ := hfirst.reads reading fuel
      (moreLines depth (text' :: texts) ++ (newLine end' ++ ']' :: after)) (by omega)
    obtain ⟨others, hbacks, hreads⟩ := ih hitem fuel (by rw [List.length_append]; omega)
    refine ⟨found :: others, .cons hback hbacks, ?_⟩
    rw [readItems, hread]
    simp only [bind, Except.bind, moreLines_cons]
    rw [skipBlank_cons (by decide)]
    simp only [skipBlank_newLine, hitem.skipBlank, hreads]

theorem readValue_list {reading fuel : Nat} {s rest after : List Char} {c : Char}
    {items : List Document} (hdepth : depth < NestingLimits.reading .json)
    (hs : skipBlank s = c :: rest) (hc : c ≠ ']')
    (h : readItems reading fuel (depth + 1) (c :: rest) = .ok (items, after)) :
    ∃ id, readValue reading (fuel + 1) depth ('[' :: s) = .ok (.list id items, after) := by
  rw [readValue, if_neg (Nat.not_le.mpr hdepth), hs]
  split
  · next heq =>
    cases heq
    exact absurd rfl hc
  · simp only [h, bind, Except.bind]
    exact ⟨_, rfl⟩

/-- **A list comes back** when its items do. -/
theorem exists_isTranscript_row {items : List Document} (hdepth : depth < room)
    (h : ∀ item ∈ items, ∃ chars, IsTranscript (depth + 1) item chars) :
    ∃ chars, IsTranscript depth (.row items) chars := by
  obtain ⟨hwriting, hreading⟩ := Nat.lt_min.mp hdepth
  obtain ⟨texts, htexts⟩ := exists_forall₂ h
  cases htexts with
  | nil =>
    refine ⟨['[', ']'], fun _ => rfl, fun _ => rfl, List.forall_iff_forall_mem.mp (by decide),
      ⟨'[', _, rfl, by decide⟩, fun _ _ => rfl, ?_⟩
    intro reading fuel after hfuel
    obtain _ | fuel := fuel
    · exact absurd hfuel (by decide)
    refine ⟨_, .list (some ⟨reading, after.length + 2⟩) .nil, ?_⟩
    show readValue _ _ _ ('[' :: ']' :: after) = _
    rw [readValue, if_neg (Nat.not_le.mpr hreading), skipBlank_cons (by decide)]
    rfl
  | @cons first text items texts hfirst hrest =>
    refine ⟨bracketed depth '[' ']' text texts, fun _ => rfl, ?_, ?_, ⟨'[', _, rfl, by decide⟩,
      fun _ _ => rfl, ?_⟩
    · intro around
      rw [Document.row, write, if_neg (by simp), if_neg (Nat.not_le.mpr hwriting), hfirst.separated]
      simp only [hfirst.written, writeItems_of_transcripts hrest]
      simp [bracketed]
    · refine isPlain_of_mem_bracketed (by decide) (by decide) fun part hpart => ?_
      obtain ⟨item, -, hitem⟩ := exists_mem_of_forall₂ (.cons hfirst hrest) hpart
      exact hitem.plain
    · intro reading fuel after hfuel
      obtain _ | fuel := fuel
      · exact absurd hfuel (by simp [bracketed])
      obtain ⟨found, hbacks, hreads⟩ := readItems_of_transcripts hrest hfirst reading fuel depth
        after (length_lt_of_bracketed hfuel)
      obtain ⟨c, rest, hbegins, hc⟩ := hfirst.begins
      have hne : ∀ c ∈ ['"', '[', '\x7b'], c ≠ ']' := List.forall_iff_forall_mem.mp (by decide)
      have hskip := hfirst.skipBlank
        (moreLines (depth + 1) texts ++ (newLine depth ++ ']' :: after))
      rw [← skipBlank_newLine (depth + 1), hbegins, List.cons_append] at hskip
      rw [hbegins, List.cons_append] at hreads
      obtain ⟨id, hvalue⟩ := readValue_list hreading hskip (hne c hc) hreads
      refine ⟨_, .list id hbacks, ?_⟩
      rw [bracketed_append, hbegins]
      exact hvalue

/-! ## Maps -/

theorem writeEntry_of_transcript {field : String × Document} {text : List Char}
    (h : IsEntryTranscript depth field text) (around : List Identity) (start : List Char) :
    writeEntry depth around start (.text field.1, field.2) = .say (start ++ text) := by
  obtain ⟨value, hvalue, rfl⟩ := h
  rw [writeEntry, hvalue.written]
  simp [writeKey, Except.map, Writing.sayIf]

theorem writeEntries_of_transcripts {fields : List (String × Document)} {texts : List (List Char)}
    (h : List.Forall₂ (IsEntryTranscript depth) fields texts) (around : List Identity) :
    writeEntries depth around (fields.map fun field => (.text field.1, field.2))
      = .say (moreLines depth texts) := by
  induction h with
  | nil => rfl
  | @cons field text fields texts hfirst hrest ih =>
    rw [List.map_cons, writeEntries, writeEntry_of_transcript hfirst, ih]
    rfl

theorem isPlain_of_mem_entryTranscript {field : String × Document} {text : List Char}
    (h : IsEntryTranscript depth field text) : ∀ c ∈ text, IsPlain c := by
  obtain ⟨value, hvalue, rfl⟩ := h
  simp only [List.forall_mem_append]
  exact ⟨⟨fun _ => isPlain_of_mem_writeText, List.forall_iff_forall_mem.mp (by decide)⟩,
    hvalue.plain⟩

theorem exists_cons_of_entryTranscript {field : String × Document} {text : List Char}
    (h : IsEntryTranscript depth field text) : ∃ rest, text = '"' :: rest := by
  obtain ⟨value, -, rfl⟩ := h
  exact ⟨_, rfl⟩

theorem skipBlank_entry {field : String × Document} {text : List Char}
    (h : IsEntryTranscript depth field text) (after : List Char) :
    skipBlank (text ++ after) = text ++ after := by
  obtain ⟨rest, rfl⟩ := exists_cons_of_entryTranscript h
  exact skipBlank_cons (by decide) _

/-- **An entry is entered into the table**, and the map ends or goes on after it. -/
theorem readEntries_of_transcript {field : String × Document} {text : List Char}
    (h : IsEntryTranscript depth field text) (reading fuel : Nat) (table : Table Document)
    (after : List Char) (hfuel : text.length ≤ fuel) :
    ∃ found, ComesBackAs field.2 found
      ∧ (∀ rest, skipBlank after = '\x7d' :: rest →
        readEntries reading (fuel + 1) depth table (text ++ after)
          = .ok (table.insert (.text field.1) found, rest))
      ∧ (∀ rest, skipBlank after = ',' :: rest →
        readEntries reading (fuel + 1) depth table (text ++ after)
          = readEntries reading fuel depth (table.insert (.text field.1) found)
            (skipBlank rest)) := by
  obtain ⟨value, hvalue, rfl⟩ := h
  simp only [List.length_append] at hfuel
  obtain ⟨found, hback, hread⟩ := hvalue.reads reading fuel after (by omega)
  obtain ⟨inside, hinside, hkey⟩ := readText_writeText
    (writeText field.1.toList ++ ([':', ' '] ++ (value ++ after))).length field.1.toList
    ([':', ' '] ++ (value ++ after))
  have hskip : skipBlank (' ' :: (value ++ after)) = value ++ after := hvalue.skipBlank after
  rw [hinside] at hkey
  refine ⟨found, hback, ?_, ?_⟩
  all_goals
    intro rest hafter
    simp only [List.append_assoc]
    rw [hinside, readEntries]
    simp only [hkey, bind, Except.bind, List.cons_append, List.nil_append]
    rw [skipBlank_cons (by decide)]
    simp only [hskip, hvalue.paired, hread, hafter, String.ofList_toList]

/-- **The entries of a map come back** from their lines, and are entered into the table. -/
theorem readEntries_of_transcripts {fields : List (String × Document)} {texts : List (List Char)}
    (h : List.Forall₂ (IsEntryTranscript depth) fields texts) {first : String × Document}
    {text : List Char} (hfirst : IsEntryTranscript depth first text) (reading fuel end' : Nat)
    (table : Table Document) (after : List Char)
    (hfuel : (text ++ moreLines depth texts).length < fuel) :
    ∃ found, List.Forall₂ EntryComesBackAs
        ((first :: fields).map fun field => (.text field.1, field.2)) found
      ∧ readEntries reading fuel depth table
        (text ++ (moreLines depth texts ++ (newLine end' ++ '\x7d' :: after)))
          = .ok (table.insertAll found, after) := by
  obtain _ | fuel := fuel
  · exact absurd hfuel (Nat.not_lt_zero _)
  induction h generalizing first text fuel table with
  | nil =>
    rw [List.length_append] at hfuel
    obtain ⟨found, hback, hlast, -⟩ := readEntries_of_transcript hfirst reading fuel table
      (moreLines depth [] ++ (newLine end' ++ '\x7d' :: after)) (by omega)
    refine ⟨[(.text first.1, found)], .cons (.entry _ hback) .nil, ?_⟩
    exact hlast after (skipBlank_newLine _ _)
  | @cons field text' fields texts hfield hrest ih =>
    have hlonger := length_moreLines_cons depth text' texts
    rw [List.length_append] at hfuel
    obtain ⟨found, hback, -, hmore⟩ := readEntries_of_transcript hfirst reading fuel table
      (moreLines depth (text' :: texts) ++ (newLine end' ++ '\x7d' :: after)) (by omega)
    obtain _ | fuel := fuel
    · omega
    obtain ⟨others, hbacks, hreads⟩ := ih hfield (table.insert (.text first.1) found)
      fuel (by rw [List.length_append]; omega)
    refine ⟨(.text first.1, found) :: others, .cons (.entry _ hback) hbacks, ?_⟩
    rw [moreLines_cons] at hmore ⊢
    rw [hmore _ (skipBlank_cons (by decide) _), skipBlank_newLine, skipBlank_entry hfield]
    exact hreads

theorem readValue_map {reading fuel : Nat} {s rest after : List Char} {c : Char}
    {table : Table Document} (hdepth : depth < NestingLimits.reading .json)
    (hs : skipBlank s = c :: rest) (hc : c ≠ '\x7d')
    (h : readEntries reading fuel (depth + 1) .empty (c :: rest) = .ok (table, after)) :
    ∃ id, readValue reading (fuel + 1) depth ('\x7b' :: s) = .ok (.map id table.entries, after) := by
  rw [readValue, if_neg (Nat.not_le.mpr hdepth), hs]
  split
  · next heq =>
    cases heq
    exact absurd rfl hc
  · simp only [h, bind, Except.bind]
    exact ⟨_, rfl⟩

/-- **A map of names comes back** when its values do. -/
theorem exists_isTranscript_record {fields : List (String × Document)}
    (hdepth : depth < room) (hnames : (fields.map (·.1)).Nodup)
    (h : ∀ field ∈ fields, ∃ chars, IsTranscript (depth + 1) field.2 chars) :
    ∃ chars, IsTranscript depth (.record fields) chars := by
  obtain ⟨hwriting, hreading⟩ := Nat.lt_min.mp hdepth
  have hentries : ∀ field ∈ fields, ∃ chars, IsEntryTranscript (depth + 1) field chars := by
    intro field hfield
    obtain ⟨value, hvalue⟩ := h field hfield
    exact ⟨_, value, hvalue, rfl⟩
  obtain ⟨texts, htexts⟩ := exists_forall₂ hentries
  cases htexts with
  | nil =>
    refine ⟨['\x7b', '\x7d'], fun _ => rfl, fun _ => rfl,
      List.forall_iff_forall_mem.mp (by decide), ⟨'\x7b', _, rfl, by decide⟩, fun _ _ => rfl, ?_⟩
    intro reading fuel after hfuel
    obtain _ | fuel := fuel
    · exact absurd hfuel (by decide)
    refine ⟨_, .map (some ⟨reading, after.length + 2⟩) .nil, ?_⟩
    show readValue _ _ _ ('\x7b' :: '\x7d' :: after) = _
    rw [readValue, if_neg (Nat.not_le.mpr hreading), skipBlank_cons (by decide)]
    rfl
  | @cons first text fields texts hfirst hrest =>
    refine ⟨bracketed depth '\x7b' '\x7d' text texts, fun _ => rfl, ?_, ?_,
      ⟨'\x7b', _, rfl, by decide⟩, fun _ _ => rfl, ?_⟩
    · intro around
      rw [Document.record, List.map_cons, write, if_neg (by simp),
        if_neg (Nat.not_le.mpr hwriting)]
      simp only [writeEntry_of_transcript hfirst, writeEntries_of_transcripts hrest]
      simp [bracketed]
    · refine isPlain_of_mem_bracketed (by decide) (by decide) fun part hpart => ?_
      obtain ⟨field, -, hfield⟩ := exists_mem_of_forall₂ (.cons hfirst hrest) hpart
      exact isPlain_of_mem_entryTranscript hfield
    · intro reading fuel after hfuel
      obtain _ | fuel := fuel
      · exact absurd hfuel (by simp [bracketed])
      obtain ⟨found, hbacks, hreads⟩ := readEntries_of_transcripts hrest hfirst reading fuel depth
        .empty after (length_lt_of_bracketed hfuel)
      have htable : Table.insertAll .empty found = ⟨found⟩ :=
        Table.ofList_of_distinctKeys (distinctKeys_of_comeBack hnames hbacks)
      rw [htable] at hreads
      obtain ⟨rest, hbegins⟩ := exists_cons_of_entryTranscript hfirst
      have hskip := skipBlank_entry hfirst
        (moreLines (depth + 1) texts ++ (newLine depth ++ '\x7d' :: after))
      rw [← skipBlank_newLine (depth + 1), hbegins, List.cons_append] at hskip
      rw [hbegins, List.cons_append] at hreads
      obtain ⟨id, hvalue⟩ := readValue_map hreading hskip (by decide) hreads
      refine ⟨_, .map id hbacks, ?_⟩
      rw [bracketed_append, hbegins]
      exact hvalue

/-! ## Documents of texts -/

/-- **A document of texts comes back**, where there is room for its height. -/
theorem exists_isTranscript {height : Nat} {d : Document} (h : OfTexts height d)
    (hroom : depth + height ≤ room) : ∃ chars, IsTranscript depth d chars := by
  induction h generalizing depth with
  | text s => exact ⟨_, isTranscript_text s⟩
  | row _ ih =>
    exact exists_isTranscript_row (by omega) fun item hitem => ih item hitem (by omega)
  | record hnames _ ih =>
    exact exists_isTranscript_record (by omega) hnames fun field hfield =>
      ih field hfield (by omega)

/-- **What is written of a document of texts is that document** to every reader. -/
theorem exists_render {height : Nat} {d : Document} (h : OfTexts height d)
    (hheight : height ≤ room) :
    ∃ chars, render d = .say chars ∧ (∀ c ∈ chars, IsPlain c)
      ∧ ∀ reading, ∃ found, ComesBackAs d found ∧ read reading chars = .ok found := by
  obtain ⟨chars, hchars⟩ : ∃ chars, IsTranscript 0 d chars := exists_isTranscript h (by omega)
  refine ⟨chars ++ ['\n'], ?_, ?_, ?_⟩
  · rw [render, hchars.written]
    rfl
  · rw [List.forall_mem_append]
    exact ⟨hchars.plain, List.forall_iff_forall_mem.mp (by decide)⟩
  · intro reading
    obtain ⟨found, hback, hread⟩ := hchars.reads reading (2 * (chars ++ ['\n']).length + 2) ['\n']
      (by rw [List.length_append]; omega)
    have hall : readAll reading (chars ++ ['\n']) = .ok found := by
      obtain ⟨c, rest, hbegins, hc⟩ := hchars.begins
      have hmark : ∀ c ∈ ['"', '[', '\x7b'], c ≠ '\ufeff' :=
        List.forall_iff_forall_mem.mp (by decide)
      unfold readAll
      split
      · next heq =>
        rw [hbegins] at heq
        cases heq
        exact absurd rfl (hmark _ hc)
      · rw [hchars.skipBlank, hread]
        rfl
    refine ⟨found, hback, ?_⟩
    unfold read
    rw [hall]

end Json

end SlotSafe
