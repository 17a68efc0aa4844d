import SlotSafe.Proofs.Declarations
import SlotSafe.Proofs.Faults
import SlotSafe.Proofs.LineTables
import SlotSafe.Proofs.Tables

/-!
# The lines of nodes

The compiler's output says which source has which number, and its input what stands in the sources.
From these the reference of a node is answered. **Nodes that are asked about one after the other are
each answered by what the input and the output say of it, and an answer is refused exactly where the
reference cannot be read or the text of the source has no octets** (`locateAll_answered`): a number
that no source has leads nowhere, a source whose text is not given is answered by its path alone, and
else the line is one more than the line feeds before the offset, in the octets of the text.

A text has no octets if a surrogate stands in it without its partner, and then every node of the
source is refused (`locateAll_unpaired`). Paths and references are texts of characters here.

The numbers are collected in a table, where a later source takes the place of an earlier one of the
same number (`enterAll_eq_ok`). The line comes from the line table of the source, and that tables are
kept does not show (`locateAll_eq_map`).
-/

namespace SlotSafe

namespace Document

theorem entries_eq_ok_iff {d : Document} {entries : List (Document × Document)} :
    d.entries = .ok entries ↔ d.table? = some ⟨entries⟩ := by
  unfold Document.entries table?
  cases d.unrolled <;> simp

/-- A map mentions the names of its members. -/
theorem mentions_of_isSome {d : Document} (h : d.table?.isSome = true) (name : String) :
    d.mentions name = .ok (d.at? name).isSome := by
  unfold at? mentions
  unfold table? at h ⊢
  cases hd : d.unrolled with
  | map id entries => exact congrArg Except.ok (Table.contains_eq_isSome_find? _ _)
  | _ => simp [hd] at h

end Document

/-! ## References -/

namespace SourceReference

/-- **A text that is no reference is rejected**, and fails in no other way. -/
theorem read_failsOnly (src : String) : FailsOnly (fun fault => ∃ why, fault = .rejected why) (read src) := by
  have hpart (part : List Char) : FailsOnly (fun fault => ∃ why, fault = .rejected why)
      (readPart part) := by
    unfold readPart
    split
    · exact .ok _
    · exact .error ⟨_, rfl⟩
  unfold read
  split
  · next start length source _ =>
    exact (hpart start).bind fun _ _ => (hpart length).bind fun _ _ => (hpart source).bind fun _ _ =>
      .ok _
  · exact .error ⟨_, rfl⟩

end SourceReference

namespace Sources

/-! ## What the compiler says of sources -/

/-- What the input or the output of the compiler lists under the name of the sources. -/
def listed (d : Document) : Document := (d.at? "sources").getD (.record [])

/-- The sources that the input or the output of the compiler lists, under their paths. -/
def listedEntries (d : Document) : List (Document × Document) :=
  ((listed d).table?.map Table.entries).getD []

/-- **A document that lists sources**: each source is a map and stands in a map, unless there are
none. -/
structure Lists (d : Document) : Prop where
  isMap : d.table?.isSome = true
  sources : (listed d).table?.isSome = true
  maps : ∀ source ∈ listedEntries d, source.2.table?.isSome = true

/-- **An output that numbers sources**: a source has a text as its path, and its number, if it has
one, can be looked up. -/
structure Numbers (output : Document) : Prop extends Lists output where
  paths : ∀ source ∈ listedEntries output, source.1.isText = true
  ids : ∀ source ∈ listedEntries output, ∀ id, source.2.at? "id" = some id → id.isKey = true

/-- Whether a document is the content of a source: a text, with surrogates in it or without, or
nothing. -/
def IsGiven (content : Document) : Prop :=
  content = .null ∨ (∃ text, content = .text text) ∨ ∃ text, content = .unpaired text

/-- **An input that gives texts**: what it gives as the content of a source is one. -/
structure Gives (input : Document) : Prop extends Lists input where
  contents : ∀ source ∈ listedEntries input,
    ∀ content, source.2.at? "content" = some content → IsGiven content

/-- Whether a source has a number. -/
def hasNumber (n : Int) (source : Document × Document) : Bool :=
  (source.2.at? "id").any (· == .int n)

/-- The path of the last source that has a number. -/
def lastPath? (output : Document) (n : Int) : Option String :=
  ((listedEntries output).filter (hasNumber n)).getLast?.bind (·.1.text?)

/-- A text with surrogates in it, or nothing. -/
def unpaired? : Document → Option Text.Unpaired
  | .unpaired text => some text
  | _ => none

/-- The text that the input gives under a path, if there are surrogates in it. -/
def unpairedUnder? (input : Document) (path : String) : Option Text.Unpaired :=
  (((listed input).at? path).bind (·.at? "content")).bind unpaired?

/-- The text of the last source that has a number, if there are surrogates in it. -/
def unpairedOf? (input output : Document) (n : Int) : Option Text.Unpaired :=
  (lastPath? output n).bind (unpairedUnder? input)

/-- The line of an offset in a text: one more than the line feeds in the octets before it. -/
def lineAt (content : String) (offset : Nat) : Nat :=
  1 + (content.toUTF8.data.toList.take offset).count LineTable.lineFeed

/-- Where an offset in the source of a number stands, by what the compiler says of the sources. -/
def placeAt (input output : Document) (n : Int) (offset : Nat) : String :=
  match lastPath? output n with
  | none => "unknown"
  | some path => match input.textAt ["sources", path, "content"] with
    | none => path
    | some content => path ++ ":" ++ toString (lineAt content offset)

/-! ## Numbers -/

theorem enter_eq_ok {paths : Table Document} {path source : Document}
    (hmap : source.table?.isSome = true)
    (hid : ∀ id, source.at? "id" = some id → id.isKey = true) :
    enter paths path source = .ok (match source.at? "id" with
      | none => paths
      | some id => paths.insert id path) := by
  unfold enter
  rw [Document.mentions_of_isSome hmap]
  cases hat : source.at? "id" with
  | none => rfl
  | some id =>
    refine bind_eq_ok_iff.mpr ⟨true, rfl, bind_eq_ok_iff.mpr ⟨id, ?_, ?_⟩⟩
    · exact Document.member_eq_ok_iff.mpr hat
    · rw [if_pos (hid id hat)]

/-- **The table of numbers finds the last source of a number.** -/
theorem enterAll_eq_ok {sources : List (Document × Document)}
    (hmaps : ∀ source ∈ sources, source.2.table?.isSome = true)
    (hids : ∀ source ∈ sources, ∀ id, source.2.at? "id" = some id → id.isKey = true)
    (paths : Table Document) :
    ∃ t, enterAll paths sources = .ok t ∧ ∀ n : Int,
      t.find? (.int n)
        = ((sources.filter (hasNumber n)).getLast?.map Prod.fst).or (paths.find? (.int n)) := by
  induction sources generalizing paths with
  | nil => exact ⟨paths, rfl, fun n => rfl⟩
  | cons source rest ih =>
    rw [List.forall_mem_cons] at hmaps hids
    obtain ⟨t, ht, hfind⟩ := ih hmaps.2 hids.2 (match source.2.at? "id" with
      | none => paths
      | some id => paths.insert id source.1)
    refine ⟨t, bind_eq_ok_iff.mpr ⟨_, enter_eq_ok hmaps.1 hids.1, ht⟩, fun n => ?_⟩
    have hentered : (match source.2.at? "id" with
        | none => paths
        | some id => paths.insert id source.1).find? (.int n)
        = if hasNumber n source then some source.1 else paths.find? (.int n) := by
      unfold hasNumber
      cases source.2.at? "id" with
      | none => rfl
      | some id =>
        rw [Table.find?_insert, Option.any_some, Document.beq_eq_sameKey id (.inr ⟨n, rfl⟩),
          Table.sameKey_comm]
    rw [hfind n, hentered]
    cases hnumber : hasNumber n source with
    | false => rw [List.filter_cons_of_neg (by simp [hnumber]), if_neg (by simp)]
    | true =>
      rw [List.filter_cons_of_pos hnumber, List.getLast?_cons, if_pos rfl]
      cases (rest.filter (hasNumber n)).getLast? <;> rfl

/-! ## Texts -/

/-- What is found under a path: the text that the input gives, if it has octets. -/
def contentUnder (input : Document) (path : String) : Except Fault (Option String) :=
  match unpairedUnder? input path with
  | some text => .error (.rejected (.unencodable text))
  | none => .ok (input.textAt ["sources", path, "content"])

/-- **The text of a source** is what the input gives under its path. -/
theorem content?_eq {s : Sources} {input : Document} (hinput : Gives input)
    (hs : s.contents = listed input) (path : String) :
    s.content? (.text path) = contentUnder input path := by
  obtain ⟨files, hfiles⟩ := Option.isSome_iff_exists.mp hinput.sources
  have hentries : listedEntries input = files.entries := by rw [listedEntries, hfiles]; rfl
  have htext : input.textAt ["sources", path, "content"]
      = (listed input).textAt [path, "content"] := by
    unfold listed
    rw [Document.textAt]
    cases input.at? "sources" <;> rfl
  unfold content? contentUnder unpairedUnder?
  rw [htext, hs, hfiles, Document.textAt, Document.at?, hfiles, Option.bind_some]
  change (Document.memberOrNull ((files.find? (.text path)).getD (.record [])) "content" >>= _) = _
  cases hsource : files.find? (.text path) with
  | none => rfl
  | some source =>
    obtain ⟨entry, hentry, -, rfl⟩ := Table.exists_of_find? hsource
    rw [← hentries] at hentry
    have hcontent := hinput.contents entry hentry
    rw [Option.getD_some, Option.bind_some, Option.bind_some, Document.textAt_singleton,
      Document.memberOrNull, Document.memberOr_of_isSome (hinput.maps entry hentry)]
    cases hat : entry.2.at? "content" with
    | none => rfl
    | some content =>
      obtain rfl | ⟨text, rfl⟩ | ⟨text, rfl⟩ := hcontent content hat <;> rfl

/-! ## Nodes -/

/-- **What a reference is answered with**: the place of its offset, and a rejection where it cannot
be read, or where the text of its source has no octets. -/
def Answered (input output : Document) (src : String) (found : Except Fault Document) : Prop :=
  match SourceReference.read src with
  | .error fault => found = .error fault ∧ ∃ why, fault = .rejected why
  | .ok reference => match unpairedOf? input output reference.source with
    | some text => found = .error (.rejected (.unencodable text))
    | none => (∃ place, found = .ok place) ∧ (0 ≤ reference.start →
        found = .ok (.text (placeAt input output reference.source reference.start.toNat)))

variable {input output : Document} {s : Sources}

theorem Answered.eq_place {src : String} {found : Except Fault Document}
    (h : Answered input output src found) (reference : SourceReference)
    (hread : SourceReference.read src = .ok reference)
    (hpaired : unpairedOf? input output reference.source = none) (hstart : 0 ≤ reference.start) :
    found = .ok (.text (placeAt input output reference.source reference.start.toNat)) := by
  simp only [Answered, hread, hpaired] at h
  exact h.2 hstart

theorem Answered.eq_error {src : String} {found : Except Fault Document}
    (h : Answered input output src found) {fault : Fault}
    (hread : SourceReference.read src = .error fault) : found = .error fault := by
  unfold Answered at h
  rw [hread] at h
  exact h.1

/-- **The sources of a compilation are told by its input and output**: the paths by the numbers, the
texts by the paths. -/
structure Told (input output : Document) (s : Sources) : Prop where
  paths : ∀ n : Int, s.paths.find? (.int n) = (lastPath? output n).map Document.text
  contents : ∀ path : String, s.content? (.text path) = contentUnder input path

theorem exists_told (hinput : Gives input) (houtput : Numbers output) :
    ∃ s, ofCompilation input output = .ok s ∧ Told input output s := by
  obtain ⟨table, htable⟩ := Option.isSome_iff_exists.mp houtput.sources
  have hentries : listedEntries output = table.entries := by rw [listedEntries, htable]; rfl
  obtain ⟨t, ht, hfind⟩ := enterAll_eq_ok houtput.maps houtput.ids .empty
  refine ⟨⟨t, listed input⟩, ?_, fun n => ?_, content?_eq hinput rfl⟩
  · rw [hentries] at ht
    refine bind_eq_ok_iff.mpr ⟨_, Document.memberOr_of_isSome houtput.isMap _ _, ?_⟩
    refine bind_eq_ok_iff.mpr ⟨_, Document.entries_eq_ok_iff.mpr htable, ?_⟩
    refine bind_eq_ok_iff.mpr ⟨t, ht, ?_⟩
    exact bind_eq_ok_iff.mpr ⟨_, Document.memberOr_of_isSome hinput.isMap _ _, rfl⟩
  · show t.find? (.int n) = _
    rw [hfind n, lastPath?]
    cases hlast : ((listedEntries output).filter (hasNumber n)).getLast? with
    | none => rfl
    | some source =>
      have hmem := List.mem_of_mem_filter (List.mem_of_getLast? hlast)
      obtain ⟨path, hpath⟩ := Option.isSome_iff_exists.mp (houtput.paths source hmem)
      show some source.1 = source.1.text?.map Document.text
      rw [hpath, Document.text?_eq_some_iff.mp hpath]
      rfl

/-- The reference of a node is the text that it has for it. -/
theorem referenceOf_of_textAt {node : Document} {src : String} (hsrc : node.textAt ["src"] = some src) :
    referenceOf node = (SourceReference.read src).map fun reference => (.text src, reference) := by
  obtain ⟨written, hat, htext⟩ := Option.bind_eq_some_iff.mp hsrc
  obtain rfl := Document.text?_eq_some_iff.mp htext
  unfold referenceOf
  rw [Document.member_eq_ok_iff.mpr hat]
  show (do .ok (Document.text src, ← SourceReference.read src) : Except Fault _) = _
  cases SourceReference.read src <;> rfl

/-- A source whose text has no octets has no places. -/
theorem Told.place_eq_error [NestingLimits] (hs : Told input output s) {path : String}
    {text : Text.Unpaired} (hpath : unpairedUnder? input path = some text) (start : Int) :
    s.place (.text path) start = .error (.rejected (.unencodable text)) := by
  unfold place lines
  simp only [hs.contents, contentUnder, hpath]
  rfl

/-- The place of an offset in a source, by what the input gives of it. -/
theorem Told.place_eq [NestingLimits] (hs : Told input output s) {path : String}
    (hpath : unpairedUnder? input path = none) (start : Int) :
    s.place (.text path) start
      = .ok (.text (match input.textAt ["sources", path, "content"] with
        | none => path
        | some content => path ++ ":" ++ toString ((LineTable.ofText content).lineOf start))) := by
  unfold place lines
  simp only [hs.contents, contentUnder, hpath]
  cases input.textAt ["sources", path, "content"] <;> rfl

/-- **One node** is answered by what is told of the sources. -/
theorem Told.answered [NestingLimits] (hs : Told input output s) {node : Document} {src : String}
    (hsrc : node.textAt ["src"] = some src) : Answered input output src (s.locate node).result := by
  have hreference := referenceOf_of_textAt hsrc
  unfold Answered
  cases hread : SourceReference.read src with
  | error fault =>
    rw [hread] at hreference
    rw [locate_eq, placeOf, hreference]
    exact ⟨rfl, SourceReference.read_failsOnly src fault hread⟩
  | ok reference =>
    have hlocate : (s.locate node).result = match (lastPath? output reference.source).map Document.text with
        | none => .ok unknown
        | some path => s.place path reference.start := by
      rw [hread] at hreference
      rw [locate_eq, placeOf, hreference, ← hs.paths]
      show Logged.result (match s.paths.find? (.int reference.source) with
        | none => _
        | some path => _) = _
      cases s.paths.find? (.int reference.source) <;> rfl
    dsimp only
    unfold unpairedOf?
    cases hpath : lastPath? output reference.source with
    | none =>
      rw [hpath] at hlocate
      refine ⟨⟨unknown, hlocate⟩, fun _ => hlocate.trans ?_⟩
      unfold placeAt
      simp only [hpath]
      rfl
    | some path =>
      rw [hpath] at hlocate
      rw [Option.bind_some]
      cases hunpaired : unpairedUnder? input path with
      | some text => exact hlocate.trans (hs.place_eq_error hunpaired reference.start)
      | none =>
        have hplace := hlocate.trans (hs.place_eq hunpaired reference.start)
        refine ⟨⟨_, hplace⟩, fun hstart => hplace.trans ?_⟩
        unfold placeAt
        simp only [hpath]
        cases input.textAt ["sources", path, "content"] with
        | none => rfl
        | some content =>
          simp only [LineTable.ofText, LineTable.lineOf_ofOctets _ hstart]
          rfl

/-- **Nodes that are asked about one after the other are each answered by what the input and the
output say of it**, whatever was asked before and whether that could be answered or not. -/
theorem locateAll_answered [NestingLimits] (hinput : Gives input) (houtput : Numbers output) :
    ∃ s, ofCompilation input output = .ok s ∧ ∀ (nodes : List Document) (srcs : List String),
      List.Forall₂ (fun node src => node.textAt ["src"] = some src) nodes srcs →
      s.locateAll [] nodes = nodes.map s.locate ∧
      List.Forall₂ (fun src found => Answered input output src found.result) srcs
        (s.locateAll [] nodes) := by
  obtain ⟨s, hs, htold⟩ := exists_told hinput houtput
  refine ⟨s, hs, fun nodes srcs hsrcs => ?_⟩
  rw [locateAll_eq_map keeps_nil]
  refine ⟨rfl, ?_⟩
  induction hsrcs with
  | nil => exact .nil
  | cons hsrc _ ih => exact .cons (htold.answered hsrc) ih

/-! ## An example -/

/-- An input that gives the text of one source, in which not every character is one octet. -/
def accentedInput : Document :=
  .record [("sources", .record [("A.sol", .record [("content", .text "// é\ncontract A {}\n")])])]

/-- An output that numbers that source and another one. -/
def accentedOutput : Document :=
  .record [("sources", .record [("A.sol", .record [("id", .int 0)]), ("B.sol", .record [("id", .int 1)])])]

/-- A node with a reference. -/
def nodeAt (src : String) : Document := .record [("src", .text src)]

theorem gives_accentedInput : Gives accentedInput where
  isMap := rfl
  sources := rfl
  maps := List.forall_mem_singleton.mpr rfl
  contents := List.forall_mem_singleton.mpr fun content h => by
    obtain rfl := Option.some.inj h
    exact .inr (.inl ⟨_, rfl⟩)

theorem numbers_accentedOutput : Numbers accentedOutput where
  isMap := rfl
  sources := rfl
  maps := List.forall_mem_cons.mpr ⟨rfl, List.forall_mem_singleton.mpr rfl⟩
  paths := List.forall_mem_cons.mpr ⟨rfl, List.forall_mem_singleton.mpr rfl⟩
  ids := by
    refine List.forall_mem_cons.mpr ⟨fun id h => ?_, List.forall_mem_singleton.mpr fun id h => ?_⟩
    all_goals
      obtain rfl := Option.some.inj h
      rfl

/-- The line feed at the offset five ends the first line. What cannot be answered, as the second
reference, leaves the answers to the others as they are. -/
theorem locateAll_accented : ∃ s, ofCompilation accentedInput accentedOutput = .ok s ∧
    (s.locateAll [] (["5:1:0", "5:1", "6:1:0", "6:1:1", "6:1:2"].map nodeAt)).map (·.result)
      = [.ok (.text "A.sol:1"), .error (.rejected (.sourceReference "5:1")), .ok (.text "A.sol:2"),
        .ok (.text "B.sol"), .ok (.text "unknown")] := by
  obtain ⟨s, hs, hanswered⟩ := locateAll_answered gives_accentedInput numbers_accentedOutput
  refine ⟨s, hs, ?_⟩
  obtain ⟨hmap, h⟩ := hanswered (["5:1:0", "5:1", "6:1:0", "6:1:1", "6:1:2"].map nodeAt)
    ["5:1:0", "5:1", "6:1:0", "6:1:1", "6:1:2"]
    (.cons rfl (.cons rfl (.cons rfl (.cons rfl (.cons rfl .nil)))))
  rw [hmap] at h ⊢
  simp only [List.map_cons, List.map_nil, List.forall₂_cons] at h ⊢
  obtain ⟨hfirst, hrefused, hsecond, hpath, hunknown, -⟩ := h
  have hplaces : [placeAt accentedInput accentedOutput 0 5, placeAt accentedInput accentedOutput 0 6,
      placeAt accentedInput accentedOutput 1 6, placeAt accentedInput accentedOutput 2 6]
        = ["A.sol:1", "A.sol:2", "B.sol", "unknown"] := by decide +kernel
  simp only [List.cons.injEq, and_true] at hplaces
  obtain ⟨hline, hnext, halone, hnone⟩ := hplaces
  rw [hfirst.eq_place ⟨5, 1, 0⟩ rfl rfl (by decide), hrefused.eq_error rfl,
    hsecond.eq_place ⟨6, 1, 0⟩ rfl rfl (by decide),
    hpath.eq_place ⟨6, 1, 1⟩ rfl rfl (by decide),
    hunknown.eq_place ⟨6, 1, 2⟩ rfl rfl (by decide)]
  simp only [Int.reduceToNat, hline, hnext, halone, hnone]

/-- An input that gives a text of one surrogate. -/
def unpairedInput : Document :=
  .record [("sources", .record [("A.sol", .record [("content", .unpaired ⟨[], ⟨0xd800, rfl⟩, []⟩)])])]

theorem gives_unpairedInput : Gives unpairedInput where
  isMap := rfl
  sources := rfl
  maps := List.forall_mem_singleton.mpr rfl
  contents := List.forall_mem_singleton.mpr fun content h => by
    obtain rfl := Option.some.inj h
    exact .inr (.inr ⟨_, rfl⟩)

/-- A reference that can be read is refused each time, since the text of its source has no octets. -/
theorem locateAll_unpaired : Gives unpairedInput ∧ Numbers accentedOutput ∧
    SourceReference.read "0:0:0" = .ok ⟨0, 0, 0⟩ ∧
    ∃ s, ofCompilation unpairedInput accentedOutput = .ok s ∧
      (s.locateAll [] (["0:0:0", "0:0:0"].map nodeAt)).map (·.result)
        = [.error (.rejected (.unencodable ⟨[], ⟨0xd800, rfl⟩, []⟩)),
          .error (.rejected (.unencodable ⟨[], ⟨0xd800, rfl⟩, []⟩))] :=
  ⟨gives_unpairedInput, numbers_accentedOutput, rfl, _, rfl, rfl⟩

end Sources

end SlotSafe
