import Mathlib.Data.List.TakeDrop
import SlotSafe.Json.Reader
import SlotSafe.Proofs.Declarations
import SlotSafe.Proofs.Tables

/-!
# How documents from JSON are nested

Documents that come from JSON are made of few kinds, and the keys of their maps are texts. And a text
holds only so much: the lists and maps in a document that comes from JSON lie inside one
another no deeper than the reader goes, and its integers have no more digits than the reader takes.
A list or map is numbered by what is left of the text where it begins, so **the numbers descend
inwards** and nothing holds itself (`within_of_read`). So what is written, shown or compared later on
can fail at such a document for its depth alone.
-/

namespace SlotSafe

namespace Document

/-! ## Kinds and bounds -/

/-- **A document such as JSON holds**: the keys of its maps are texts, and nothing in it is a pair,
a set, or a knot. -/
inductive IsJson : Document → Prop
  | null : IsJson null
  | bool (b : Bool) : IsJson (bool b)
  | int (n : Int) : IsJson (int n)
  | float (x : Binary64) : IsJson (float x)
  | nan (id : Identity) : IsJson (nan id)
  | text (s : String) : IsJson (text s)
  | unpaired (u : Text.Unpaired) : IsJson (unpaired u)
  | list {id : Option Identity} {items : List Document} (parts : ∀ item ∈ items, IsJson item) :
    IsJson (list id items)
  | map {id : Option Identity} {entries : List (Document × Document)}
    (keys : ∀ entry ∈ entries, entry.1.isText = true) (parts : ∀ entry ∈ entries, IsJson entry.2) :
    IsJson (map id entries)

mutual

/-- **How many lists and maps lie inside one another** in a document. -/
def height : Document → Nat
  | pair a b => max a.height b.height + 1
  | list _ items => heightItems items + 1
  | map _ entries => heightEntries entries + 1
  | set _ members => heightItems members + 1
  | knot _ body => body.height
  | _ => 0

/-- How many lists and maps lie inside one another in one of some items. -/
def heightItems : List Document → Nat
  | [] => 0
  | item :: rest => max item.height (heightItems rest)

/-- How many lists and maps lie inside one another in one of some values. -/
def heightEntries : List (Document × Document) → Nat
  | [] => 0
  | (_, value) :: rest => max value.height (heightEntries rest)

end

/-- The bound for the numbers of the parts of a list or map: its own number, if it has one. -/
def boundInside (bound : Nat) (id : Option Identity) : Nat := (id.map Identity.number).getD bound

/-- **A document within bounds**: at most `height` lists and maps lie inside one another, their
numbers descend from below `bound` inwards, integers have few enough digits to be written, and the
keys of maps are texts. -/
inductive Within : (height bound : Nat) → Document → Prop
  | null {height bound : Nat} : Within height bound null
  | bool {height bound : Nat} (b : Bool) : Within height bound (bool b)
  | int {height bound : Nat} {n : Int} (digits : Decimal.isWritable n = true) :
    Within height bound (int n)
  | float {height bound : Nat} (x : Binary64) : Within height bound (float x)
  | nan {height bound : Nat} (id : Identity) : Within height bound (nan id)
  | text {height bound : Nat} (s : String) : Within height bound (text s)
  | unpaired {height bound : Nat} (u : Text.Unpaired) : Within height bound (unpaired u)
  | list {height bound : Nat} {id : Option Identity} {items : List Document}
    (number : ∀ i, id = some i → i.number < bound)
    (parts : ∀ item ∈ items, Within height (boundInside bound id) item) :
    Within (height + 1) bound (list id items)
  | map {height bound : Nat} {id : Option Identity} {entries : List (Document × Document)}
    (number : ∀ i, id = some i → i.number < bound)
    (keys : ∀ entry ∈ entries, entry.1.isText = true)
    (parts : ∀ entry ∈ entries, Within height (boundInside bound id) entry.2) :
    Within (height + 1) bound (map id entries)

variable {height height' bound bound' : Nat} {d : Document}

theorem boundInside_mono (hbound : bound ≤ bound') (id : Option Identity) :
    boundInside bound id ≤ boundInside bound' id := by
  cases id with
  | none => exact hbound
  | some i => exact Nat.le_refl _

theorem Within.mono (h : Within height bound d) (hheight : height ≤ height')
    (hbound : bound ≤ bound') : Within height' bound' d := by
  induction h generalizing height' bound' with
  | null => exact .null
  | bool b => exact .bool b
  | int digits => exact .int digits
  | float x => exact .float x
  | nan id => exact .nan id
  | text s => exact .text s
  | unpaired u => exact .unpaired u
  | list number parts ih =>
    obtain _ | height' := height'
    · omega
    · refine .list (fun i hi => Nat.lt_of_lt_of_le (number i hi) hbound) fun item hitem => ?_
      exact ih item hitem (Nat.le_of_succ_le_succ hheight) (boundInside_mono hbound _)
  | map number keys parts ih =>
    obtain _ | height' := height'
    · omega
    · refine .map (fun i hi => Nat.lt_of_lt_of_le (number i hi) hbound) keys fun entry hentry => ?_
      exact ih entry hentry (Nat.le_of_succ_le_succ hheight) (boundInside_mono hbound _)

theorem Within.isJson (h : Within height bound d) : d.IsJson := by
  induction h with
  | null => exact .null
  | bool b => exact .bool b
  | int digits => exact .int _
  | float x => exact .float x
  | nan id => exact .nan id
  | text s => exact .text s
  | unpaired u => exact .unpaired u
  | list number parts ih => exact .list ih
  | map number keys parts ih => exact .map keys ih

/-! ## Heights -/

theorem height_le_heightItems {items : List Document} {item : Document} (h : item ∈ items) :
    item.height ≤ heightItems items := by
  induction items with
  | nil => cases h
  | cons first rest ih =>
    unfold heightItems
    obtain rfl | hrest := List.mem_cons.mp h
    · exact Nat.le_max_left _ _
    · exact Nat.le_trans (ih hrest) (Nat.le_max_right _ _)

theorem height_le_heightEntries {entries : List (Document × Document)}
    {entry : Document × Document} (h : entry ∈ entries) : entry.2.height ≤ heightEntries entries := by
  induction entries with
  | nil => cases h
  | cons first rest ih =>
    obtain ⟨key, value⟩ := first
    unfold heightEntries
    obtain rfl | hrest := List.mem_cons.mp h
    · exact Nat.le_max_left _ _
    · exact Nat.le_trans (ih hrest) (Nat.le_max_right _ _)

/-- **The height of a document within bounds bounds it** too. -/
theorem Within.of_height_le (h : d.Within height bound) (hheight : d.height ≤ height') :
    d.Within height' bound := by
  induction h generalizing height' with
  | null => exact .null
  | bool b => exact .bool b
  | int digits => exact .int digits
  | float x => exact .float x
  | nan id => exact .nan id
  | text s => exact .text s
  | unpaired u => exact .unpaired u
  | list number parts ih =>
    unfold Document.height at hheight
    obtain _ | height' := height'
    · omega
    · refine .list number fun item hitem => ih item hitem ?_
      exact Nat.le_trans (height_le_heightItems hitem) (Nat.le_of_succ_le_succ hheight)
  | map number keys parts ih =>
    unfold Document.height at hheight
    obtain _ | height' := height'
    · omega
    · refine .map number keys fun entry hentry => ih entry hentry ?_
      exact Nat.le_trans (height_le_heightEntries hentry) (Nat.le_of_succ_le_succ hheight)

/-! ## Documents that are reached -/

variable {v : Document} {name : String}

theorem IsJson.unrolled (h : d.IsJson) : d.unrolled = d := by
  cases h <;> rfl

theorem IsJson.of_at? (h : d.IsJson) (hv : d.at? name = some v) : v.IsJson := by
  obtain ⟨table, htable, hfind⟩ := Option.bind_eq_some_iff.mp hv
  unfold table? at htable
  rw [h.unrolled] at htable
  cases h with
  | map keys parts =>
    cases htable
    obtain ⟨entry, hentry, -, rfl⟩ := Table.exists_of_find? hfind
    exact parts entry hentry
  | _ => cases htable

theorem IsJson.of_member (h : d.IsJson) (hv : d.member name = .ok v) : v.IsJson :=
  h.of_at? (member_eq_ok_iff.mp hv)

theorem IsJson.of_memberOr (h : d.IsJson) {absent : Document} (habsent : absent.IsJson)
    (hv : d.memberOr name absent = .ok v) : v.IsJson := by
  obtain ⟨-, rfl⟩ := memberOr_eq_ok_iff.mp hv
  cases hat : d.at? name with
  | none => exact habsent
  | some member => exact h.of_at? hat

/-- **The keys of a map from JSON are texts.** -/
theorem IsJson.isText_of_entries (h : d.IsJson) {entries : List (Document × Document)}
    (hentries : d.entries = .ok entries) : ∀ entry ∈ entries, entry.1.isText = true := by
  unfold Document.entries at hentries
  rw [h.unrolled] at hentries
  cases h with
  | map keys parts =>
    cases hentries
    exact keys
  | _ => cases hentries

theorem isJson_record_nil : (record []).IsJson := .map (List.forall_mem_nil _) (List.forall_mem_nil _)

theorem within_row {items : List Document} (h : ∀ item ∈ items, item.Within height bound) :
    (row items).Within (height + 1) bound :=
  .list nofun h

theorem within_record {fields : List (String × Document)}
    (h : ∀ field ∈ fields, field.2.Within height bound) :
    (record fields).Within (height + 1) bound := by
  refine .map nofun (fun entry hentry => ?_) fun entry hentry => ?_
  · obtain ⟨field, -, rfl⟩ := List.mem_map.mp hentry
    rfl
  · obtain ⟨field, hfield, rfl⟩ := List.mem_map.mp hentry
    exact h field hfield

theorem within_row_nil (hheight : 0 < height) : (row []).Within height bound := by
  have hrow : (row []).Within (0 + 1) bound := within_row (List.forall_mem_nil _)
  exact hrow.mono hheight (Nat.le_refl _)

theorem within_record_nil (hheight : 0 < height) : (record []).Within height bound := by
  have hrecord : (record []).Within (0 + 1) bound := within_record (List.forall_mem_nil _)
  exact hrecord.mono hheight (Nat.le_refl _)

/-- The parts of a numbered list or map are below its own bound. -/
theorem boundInside_le {id : Option Identity} (h : ∀ i, id = some i → i.number < bound) :
    boundInside bound id ≤ bound := by
  cases id with
  | none => exact Nat.le_refl _
  | some i => exact Nat.le_of_lt (h i rfl)

/-- **A document within bounds is taken apart** into entries that are within one level less. -/
theorem Within.of_entries (h : d.Within height bound) {entries : List (Document × Document)}
    (hentries : d.entries = .ok entries) :
    ∀ entry ∈ entries, entry.1.isText = true ∧ entry.2.Within (height - 1) bound := by
  unfold Document.entries at hentries
  rw [h.isJson.unrolled] at hentries
  cases h with
  | map number keys parts =>
    cases hentries
    exact fun entry hentry => ⟨keys entry hentry,
      (parts entry hentry).mono (Nat.le_refl _) (boundInside_le number)⟩
  | _ => cases hentries

theorem Within.of_at? (h : d.Within height bound) (hv : d.at? name = some v) :
    v.Within (height - 1) bound := by
  obtain ⟨table, htable, hfind⟩ := Option.bind_eq_some_iff.mp hv
  unfold table? at htable
  split at htable
  · next entries hmap =>
    cases htable
    obtain ⟨entry, hentry, -, rfl⟩ := Table.exists_of_find? hfind
    have hentries : d.entries = .ok entries := by rw [Document.entries, hmap]
    exact (h.of_entries hentries entry hentry).2
  · cases htable

theorem Within.of_member (h : d.Within height bound) (hv : d.member name = .ok v) :
    v.Within (height - 1) bound :=
  h.of_at? (member_eq_ok_iff.mp hv)

theorem Within.of_memberOr (h : d.Within height bound) {absent : Document}
    (habsent : absent.Within (height - 1) bound) (hv : d.memberOr name absent = .ok v) :
    v.Within (height - 1) bound := by
  obtain ⟨-, rfl⟩ := memberOr_eq_ok_iff.mp hv
  cases hat : d.at? name with
  | none => exact habsent
  | some member => exact h.of_at? hat

theorem within_ofPoint (point : Text.Point) : (ofPoint point).Within height bound := by
  cases point with
  | char c => exact .text _
  | surrogate s => exact .unpaired _

theorem Within.of_elements (h : d.Within height bound) {items : List Document}
    (hitems : d.elements = .ok items) : ∀ item ∈ items, item.Within (height - 1) bound := by
  unfold Document.elements at hitems
  rw [h.isJson.unrolled] at hitems
  cases h with
  | text s =>
    cases hitems
    intro item hitem
    obtain ⟨c, -, rfl⟩ := List.mem_map.mp hitem
    exact .text _
  | unpaired u =>
    cases hitems
    intro item hitem
    obtain ⟨point, -, rfl⟩ := List.mem_map.mp hitem
    exact within_ofPoint point
  | list number parts =>
    cases hitems
    exact fun item hitem => (parts item hitem).mono (Nat.le_refl _) (boundInside_le number)
  | map number keys parts =>
    cases hitems
    intro item hitem
    obtain ⟨entry, hentry, rfl⟩ := List.mem_map.mp hitem
    obtain ⟨s, hs⟩ := exists_text_of_isText (keys entry hentry)
    exact hs ▸ .text s
  | _ => cases hitems

end Document

/-! ## What is left of a text -/

namespace Json

open Document

theorem length_skipBlank_le (s : List Char) : (skipBlank s).length ≤ s.length :=
  (List.dropWhile_suffix _).length_le

theorem length_le_of_readPoints {start : Nat} {acc points : List Text.Point} {s rest : List Char}
    (h : readPoints start acc s = .ok (points, rest)) : rest.length ≤ s.length := by
  fun_induction readPoints start acc s
  all_goals
    first
    | next ih =>
      have hrest := ih h
      simp only [List.length_cons] at hrest ⊢
      omega
    | simp +zetaDelta at h
  case case2 => simp [h]

theorem length_le_of_readText {start : Nat} {s rest : List Char} {content : String}
    (h : readText start s = .ok (content, rest)) : rest.length ≤ s.length := by
  obtain ⟨⟨points, left⟩, hpoints, h⟩ := bind_eq_ok_iff.mp h
  cases h
  exact length_le_of_readPoints hpoints

theorem length_le_of_readContent? {key : String} {s rest : List Char} {u : Text.Unpaired}
    (h : readContent? key s = some (u, rest)) : rest.length ≤ s.length := by
  unfold readContent? at h
  split at h
  · split at h
    · split at h
      · next hpoints =>
        split at h
        · cases h
        · cases h
          exact Nat.le_trans (length_le_of_readPoints hpoints) (Nat.le_succ _)
      · cases h
    · cases h
  · cases h

theorem spanDigits_eq (s : List Char) :
    spanDigits s = (s.takeWhile Char.isDigit, s.dropWhile Char.isDigit) :=
  List.span_eq_takeWhile_dropWhile _ s

theorem length_spanDigits_le (s : List Char) : (spanDigits s).2.length ≤ s.length := by
  rw [spanDigits_eq]
  exact (List.dropWhile_suffix _).length_le

theorem length_readFraction_le (s : List Char) : (readFraction s).2.length ≤ s.length := by
  unfold readFraction
  split
  · next rest =>
    have hrest := length_spanDigits_le rest
    split
    · exact Nat.le_refl _
    · rw [List.length_cons]
      omega
  · exact Nat.le_refl _

theorem length_readExponent_le (s : List Char) : (readExponent s).2.length ≤ s.length := by
  unfold readExponent
  simp only
  split
  · split
    · split <;> split <;> grind [length_spanDigits_le]
    · exact Nat.le_refl _
  · exact Nat.le_refl _

/-- **Digits write a number below the power of ten of their count.** -/
theorem ofDigitChars_lt {digits : List Char} (h : ∀ c ∈ digits, c.isDigit = true) (n : Nat) :
    Nat.ofDigitChars 10 digits n < (n + 1) * Nat.pow 10 digits.length := by
  induction digits generalizing n with
  | nil => simp
  | cons c rest ih =>
    obtain ⟨hc, hrest⟩ := List.forall_mem_cons.mp h
    have hdigit : c.toNat - '0'.toNat < 10 := by
      simp only [Char.isDigit, Bool.and_eq_true, decide_eq_true_eq, ge_iff_le,
        UInt32.le_iff_toNat_le] at hc
      have hnine : c.toNat ≤ 57 := hc.2
      have hzero : '0'.toNat = 48 := rfl
      omega
    have hpow : Nat.pow 10 (c :: rest).length = 10 * Nat.pow 10 rest.length := Nat.pow_succ'
    rw [Nat.ofDigitChars_cons, hpow]
    calc Nat.ofDigitChars 10 rest (10 * n + (c.toNat - '0'.toNat))
        < (10 * n + (c.toNat - '0'.toNat) + 1) * Nat.pow 10 rest.length := ih hrest _
      _ ≤ ((n + 1) * 10) * Nat.pow 10 rest.length := Nat.mul_le_mul_right _ (by omega)
      _ = (n + 1) * (10 * Nat.pow 10 rest.length) := Nat.mul_assoc _ _ _

theorem readWhole_eq_some {s whole rest : List Char} (h : readWhole s = some (whole, rest)) :
    (∀ c ∈ whole, c.isDigit = true) ∧ rest.length ≤ s.length := by
  unfold readWhole at h
  split at h
  · cases h
    exact ⟨List.forall_mem_singleton.mpr rfl, Nat.le_succ _⟩
  · split at h
    · rw [spanDigits_eq] at h
      cases h
      exact ⟨fun c hc => List.all_eq_true.mp List.all_takeWhile c hc, (List.dropWhile_suffix _).length_le⟩
    · cases h
  · cases h

/-- An integer of few enough digits is written again, whatever its sign. -/
theorem isWritable_of_digits {whole : List Char} (hdigits : ∀ c ∈ whole, c.isDigit = true)
    (hlimit : whole.length ≤ Decimal.digitLimit) (negative : Bool) :
    Decimal.isWritable (if negative then -(digitsValue whole : Int) else digitsValue whole) = true := by
  have hvalue (limit : Nat) (h : whole.length ≤ limit) : digitsValue whole < Nat.pow 10 limit :=
    calc digitsValue whole < (0 + 1) * Nat.pow 10 whole.length := ofDigitChars_lt hdigits 0
      _ = Nat.pow 10 whole.length := by rw [Nat.zero_add, Nat.one_mul]
      _ ≤ Nat.pow 10 limit := Nat.pow_le_pow_right (by decide) h
  have habs : (if negative then -(digitsValue whole : Int) else digitsValue whole).natAbs
      = digitsValue whole := by
    cases negative <;> simp
  unfold Decimal.isWritable
  rw [habs]
  exact decide_eq_true (hvalue _ hlimit)

/-- **A number is read within any bounds**, since it has few enough digits. -/
theorem readNumber_eq_some {s rest : List Char} {d : Document}
    (h : readNumber s = some (.ok d, rest)) :
    (∀ height bound, d.Within height bound) ∧ rest.length ≤ s.length := by
  unfold readNumber at h
  simp only at h
  split at h
  · cases h
  · next whole left hwhole =>
    obtain ⟨hdigits, hleft⟩ := readWhole_eq_some hwhole
    have hfraction := length_readFraction_le left
    have hexponent := length_readExponent_le (readFraction left).2
    have hbody : left.length ≤ s.length := by
      refine Nat.le_trans hleft ?_
      split
      · exact Nat.le_succ _
      · exact Nat.le_refl _
    have hrest := Nat.le_trans hexponent (Nat.le_trans hfraction hbody)
    split at h
    · split at h
      · cases h
      · next hlimit =>
        cases h
        refine ⟨fun height bound => .int ?_, hrest⟩
        exact isWritable_of_digits hdigits (Nat.le_of_not_lt hlimit) _
    · cases h
      exact ⟨fun height bound => .float _, hrest⟩

/-! ## Reading -/

/-- A table with texts as keys and values within bounds. -/
def WithinTable (height bound : Nat) (t : Table Document) : Prop :=
  ∀ entry ∈ t.entries, entry.1.isText = true ∧ entry.2.Within height bound

variable {height bound : Nat}

section

variable {reading depth number limit : Nat} (hdepth : ¬limit ≤ depth)
include hdepth

/-- A list that is read is one level higher than its items, and has a number past theirs. -/
theorem within_numbered_list {items : List Document}
    (h : ∀ item ∈ items, item.Within (limit - (depth + 1)) number) :
    (Document.list (some ⟨reading, number⟩) items).Within (limit - depth) (number + 1) := by
  have hheight : limit - depth = limit - (depth + 1) + 1 := by omega
  rw [hheight]
  exact .list (fun _ hid => Option.some.inj hid ▸ Nat.lt_succ_self number) h

/-- A map that is read is one level higher than its values, and has a number past theirs. -/
theorem within_numbered_map {t : Table Document}
    (h : WithinTable (limit - (depth + 1)) number t) :
    (Document.map (some ⟨reading, number⟩) t.entries).Within (limit - depth) (number + 1) := by
  have hheight : limit - depth = limit - (depth + 1) + 1 := by omega
  rw [hheight]
  exact .map (fun _ hid => Option.some.inj hid ▸ Nat.lt_succ_self number)
    (fun entry hentry => (h entry hentry).1) fun entry hentry => (h entry hentry).2

end

/-- A value under a name leaves the keys of a table texts, and its values what they all are. -/
theorem texts_insert {P : Document → Prop} {t : Table Document}
    (h : ∀ entry ∈ t.entries, entry.1.isText = true ∧ P entry.2) (name : String) {d : Document}
    (hd : P d) : ∀ entry ∈ (t.insert (.text name) d).entries, entry.1.isText = true ∧ P entry.2 := by
  intro entry hentry
  obtain hmem | ⟨hvalue, hkey⟩ := Table.mem_insert hentry
  · exact h entry hmem
  · have hname : (text name).sameKey entry.1 = true := by rw [hkey, sameKey_text, beq_self_eq_true]
    have htext : entry.1 = text name := sameKey_text_iff.mp (Table.sameKey_symm hname)
    exact ⟨by rw [htext]; rfl, hvalue ▸ hd⟩

variable [NestingLimits]

mutual

/-- A value lies no deeper than the reader still goes, and is numbered by what is left of the
text. -/
theorem within_of_readValue {reading : Nat} : ∀ {fuel depth : Nat} {s rest : List Char}
    {d : Document}, readValue reading fuel depth s = .ok (d, rest) →
      d.Within (NestingLimits.reading .json - depth) (s.length + 1) ∧ rest.length ≤ s.length
  | 0, _, _, _, _, h => by cases h
  | fuel + 1, depth, s, rest, d, h => by
    unfold readValue at h
    split at h
    · obtain ⟨⟨chars, rest⟩, htext, h⟩ := bind_eq_ok_iff.mp h
      cases h
      exact ⟨.text _, Nat.le_trans (length_le_of_readText htext) (Nat.le_succ _)⟩
    · next inner =>
      split at h
      · cases h
      · next hdepth =>
        have hblank := length_skipBlank_le inner
        split at h
        · next hclosed =>
          cases h
          rw [hclosed, List.length_cons] at hblank
          exact ⟨within_numbered_list hdepth (List.forall_mem_nil _), by rw [List.length_cons]; omega⟩
        · obtain ⟨⟨items, rest⟩, hitems, h⟩ := bind_eq_ok_iff.mp h
          cases h
          obtain ⟨hparts, hrest⟩ := within_of_readItems hitems
          refine ⟨within_numbered_list hdepth fun item hitem => ?_, by rw [List.length_cons]; omega⟩
          exact (hparts item hitem).mono (Nat.le_refl _) (Nat.succ_le_succ hblank)
    · next inner =>
      split at h
      · cases h
      · next hdepth =>
        have hblank := length_skipBlank_le inner
        split at h
        · next hclosed =>
          cases h
          rw [hclosed, List.length_cons] at hblank
          exact ⟨within_numbered_map hdepth (List.forall_mem_nil _), by rw [List.length_cons]; omega⟩
        · obtain ⟨⟨table, rest⟩, htable, h⟩ := bind_eq_ok_iff.mp h
          cases h
          obtain ⟨hentries, hrest⟩ :=
            within_of_readEntries (List.forall_mem_nil _) (Nat.succ_le_succ hblank) htable
          exact ⟨within_numbered_map hdepth hentries, by rw [List.length_cons]; omega⟩
    · cases h; exact ⟨.null, by simp only [List.length_cons]; omega⟩
    · cases h; exact ⟨.bool _, by simp only [List.length_cons]; omega⟩
    · cases h; exact ⟨.bool _, by simp only [List.length_cons]; omega⟩
    · cases h; exact ⟨.nan _, by simp only [List.length_cons]; omega⟩
    · cases h; exact ⟨.float _, by simp only [List.length_cons]; omega⟩
    · cases h; exact ⟨.float _, by simp only [List.length_cons]; omega⟩
    · split at h
      · next hnumber =>
        cases h
        obtain ⟨hwithin, hrest⟩ := readNumber_eq_some hnumber
        exact ⟨hwithin _ _, hrest⟩
      · cases h
      · cases h

theorem within_of_readItems {reading : Nat} : ∀ {fuel depth : Nat} {s rest : List Char}
    {items : List Document}, readItems reading fuel depth s = .ok (items, rest) →
      (∀ item ∈ items, item.Within (NestingLimits.reading .json - depth) (s.length + 1))
        ∧ rest.length ≤ s.length
  | 0, _, _, _, _, h => by cases h
  | fuel + 1, depth, s, rest, items, h => by
    unfold readItems at h
    obtain ⟨⟨item, left⟩, hitem, h⟩ := bind_eq_ok_iff.mp h
    obtain ⟨hwithin, hleft⟩ := within_of_readValue hitem
    have hblank := length_skipBlank_le left
    dsimp only at h
    split at h
    · next hclosed =>
      cases h
      rw [hclosed, List.length_cons] at hblank
      exact ⟨List.forall_mem_singleton.mpr hwithin, by omega⟩
    · next more hcomma =>
      obtain ⟨⟨others, rest⟩, hothers, h⟩ := bind_eq_ok_iff.mp h
      cases h
      obtain ⟨hparts, hrest⟩ := within_of_readItems hothers
      have hmore := length_skipBlank_le more
      rw [hcomma, List.length_cons] at hblank
      refine ⟨List.forall_mem_cons.mpr ⟨hwithin, fun other hother => ?_⟩, by dsimp only; omega⟩
      exact (hparts other hother).mono (Nat.le_refl _) (by omega)
    · cases h

theorem within_of_readEntries {reading : Nat} : ∀ {fuel depth bound : Nat}
    {table found : Table Document} {s rest : List Char},
      WithinTable (NestingLimits.reading .json - depth) bound table → s.length + 1 ≤ bound →
      readEntries reading fuel depth table s = .ok (found, rest) →
      WithinTable (NestingLimits.reading .json - depth) bound found ∧ rest.length ≤ s.length
  | 0, _, _, _, _, _, _, _, _, h => by cases h
  | fuel + 1, depth, bound, table, found, s, rest, htable, hbound, h => by
    unfold readEntries at h
    split at h
    · obtain ⟨⟨key, left⟩, hkey, h⟩ := bind_eq_ok_iff.mp h
      have hleft := length_le_of_readText hkey
      have hblank := length_skipBlank_le left
      rw [List.length_cons] at hbound
      dsimp only at h
      split at h
      · next behind hcolon =>
        obtain ⟨⟨value, after⟩, hvalue, h⟩ := bind_eq_ok_iff.mp h
        obtain ⟨hwithin, hafter⟩ : value.Within (NestingLimits.reading .json - depth)
            ((skipBlank behind).length + 1) ∧ after.length ≤ (skipBlank behind).length := by
          split at hvalue
          · next hcontent =>
            cases hvalue
            exact ⟨.unpaired _, length_le_of_readContent? hcontent⟩
          · exact within_of_readValue hvalue
        have hbehind := length_skipBlank_le behind
        have hend := length_skipBlank_le after
        rw [hcolon, List.length_cons] at hblank
        have hinsert := texts_insert htable key
          (hwithin.mono (Nat.le_refl _) (by omega))
        rw [List.length_cons]
        dsimp only at h
        split at h
        · next hclosed =>
          cases h
          rw [hclosed, List.length_cons] at hend
          exact ⟨hinsert, by omega⟩
        · next more hcomma =>
          rw [hcomma, List.length_cons] at hend
          have hmore := length_skipBlank_le more
          obtain ⟨hfound, hrest⟩ := within_of_readEntries hinsert (by omega) h
          exact ⟨hfound, by omega⟩
        · cases h
      · cases h
    · cases h

end

/-- What is read from a whole text is read as a value. -/
theorem exists_readValue {reading : Nat} {s : List Char} {d : Document} (h : read reading s = .ok d) :
    ∃ fuel rest, readValue reading fuel 0 (skipBlank s) = .ok (d, rest) := by
  have hall : readAll reading s = .ok d := by
    unfold read at h
    split at h
    · next hread =>
      cases h
      exact hread
    · cases h
  unfold readAll at hall
  split at hall
  · cases hall
  · obtain ⟨⟨value, rest⟩, hvalue, hend⟩ := bind_eq_ok_iff.mp hall
    dsimp only at hend
    split at hend
    · cases hend
      exact ⟨_, rest, hvalue⟩
    · cases hend

/-- **What is read from JSON is within bounds.** -/
theorem within_of_read {reading : Nat} {s : List Char} {d : Document}
    (h : read reading s = .ok d) : ∃ bound, d.Within (NestingLimits.reading .json) bound := by
  obtain ⟨fuel, rest, hvalue⟩ := exists_readValue h
  exact ⟨_, (within_of_readValue hvalue).1⟩

/-- **What is read is a document such as JSON holds.** -/
theorem isJson_of_read {reading : Nat} {s : List Char} {d : Document}
    (h : read reading s = .ok d) : d.IsJson := by
  obtain ⟨bound, hwithin⟩ := within_of_read h
  exact hwithin.isJson

end Json

end SlotSafe
