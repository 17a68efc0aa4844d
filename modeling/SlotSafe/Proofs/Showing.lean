import SlotSafe.DataFormat
import SlotSafe.Log.Setup
import SlotSafe.Proofs.Faults
import SlotSafe.Proofs.Nesting

/-!
# What can be shown and written

A document is not shown when an integer in it has too many digits or something lies too deep, and for
no other reason (`display_failsOnly`). It is not written, compared or told of in an event when it
holds itself, either. None of this happens to a document within bounds: **it is shown, written,
compared and told of, if it lies no deeper than the ones who follow it go**
(`canBeShown_of_within`, `DataFormat.complete_write`, `comparesWithin_of_within`,
`canBeTold_of_within`).

Each of the followers goes through a document by its parts, and so do the proofs. What a follower
keeps of the lists and maps around a place has numbers from the bound on, and the numbers of the parts
lie below it, so that no part is ever taken for something around it.
-/

namespace SlotSafe

namespace Document

variable {height bound : Nat} {d : Document}

/-! ## Comparing -/

theorem partsCompare_of_forall {compares : Document → Document → Bool}
    {pairs : List (Document × Document)} (h : ∀ pair ∈ pairs, compares pair.1 pair.2 = true) :
    partsCompare compares pairs = true := by
  induction pairs with
  | nil => rfl
  | cons pair rest ih =>
    obtain ⟨hpair, hrest⟩ := List.forall_mem_cons.mp h
    obtain ⟨x, y⟩ := pair
    rw [partsCompare, hpair, ih hrest]
    simp

/-- What stands beside the values of another map are values of the map. -/
theorem mem_of_mem_valuesBeside {xs ys : List (Document × Document)} {pair : Document × Document}
    (h : pair ∈ valuesBeside ys xs) : ∃ entry ∈ xs, entry.2 = pair.1 := by
  induction xs with
  | nil => cases h
  | cons entry rest ih =>
    obtain ⟨key, value⟩ := entry
    unfold valuesBeside at h
    split at h
    · obtain rfl | h := List.mem_cons.mp h
      · exact ⟨(key, value), List.mem_cons_self, rfl⟩
      · obtain ⟨entry, hentry, hvalue⟩ := ih h
        exact ⟨entry, List.mem_cons_of_mem _ hentry, hvalue⟩
    · cases h

/-- **A document within bounds is compared with any other.** -/
theorem comparesWithin_of_within (h : d.Within height bound) {depth : Nat} (hdepth : height < depth)
    (other : Document) : comparesWithin depth d other = true := by
  induction h generalizing depth other with
  | list number parts ih =>
    obtain _ | depth := depth
    · omega
    · unfold comparesWithin
      rw [show (list _ _).unrolled = list _ _ from rfl]
      cases other.unrolled with
      | list id ys =>
        refine Bool.or_eq_true_iff.mpr (.inr (partsCompare_of_forall fun pair hpair => ?_))
        exact ih pair.1 (List.of_mem_zip hpair).1 (by omega) pair.2
      | _ => rfl
  | map number keys parts ih =>
    obtain _ | depth := depth
    · omega
    · unfold comparesWithin
      rw [show (map _ _).unrolled = map _ _ from rfl]
      cases other.unrolled with
      | map id ys =>
        refine Bool.or_eq_true_iff.mpr (.inr (partsCompare_of_forall fun pair hpair => ?_))
        obtain ⟨entry, hentry, hvalue⟩ := mem_of_mem_valuesBeside hpair
        exact hvalue ▸ ih entry hentry (by omega) pair.2
      | _ => rfl
  | _ =>
    obtain _ | depth := depth
    · omega
    · rfl

/-! ## Showing -/

/-- Why a document is not shown: an integer has too many digits, or something lies too deep. -/
def HindersShowing (o : Obstacle) : Prop := o = .digits ∨ o = .depth

theorem intText_failsOnly (n : Int) : FailsOnly HindersShowing (intText n) := by
  unfold intText
  split
  · exact .ok _
  · exact .error (.inl rfl)

variable [NestingLimits]

mutual

theorem nested_failsOnly : ∀ (depth : Nat) (around : Around) (d : Document),
    FailsOnly HindersShowing (nested depth around d)
  | _, _, .null => .ok _
  | _, _, .bool _ => .ok _
  | _, _, .int n => intText_failsOnly n
  | _, _, .float _ => .ok _
  | _, _, .nan _ => .ok _
  | _, _, .text _ => .ok _
  | _, _, .unpaired _ => .ok _
  | _, _, .octets _ => .ok _
  | _, _, .moment _ _ => .ok _
  | depth, around, .pair a b => by
    unfold nested
    exact (nested_failsOnly _ around a).bind fun _ _ =>
      (nested_failsOnly _ around b).bind fun _ _ => .ok _
  | depth, around, .list id items => by
    unfold nested
    split
    · exact .ok _
    · split
      · exact .error (.inr rfl)
      · exact (nestedItems_failsOnly _ _ items).bind fun _ _ => .ok _
  | depth, around, .map id entries => by
    unfold nested
    split
    · exact .ok _
    · split
      · exact .error (.inr rfl)
      · exact (nestedEntries_failsOnly _ _ entries).bind fun _ _ => .ok _
  | depth, around, .set id members => by
    unfold nested
    split
    · exact .ok _
    · exact (nestedItems_failsOnly _ _ members).bind fun _ _ => .ok _
  | depth, around, .knot id body => by
    unfold nested
    exact nested_failsOnly depth around body
  | _, _, .loop _ => .ok _

theorem nestedItems_failsOnly : ∀ (depth : Nat) (around : Around) (items : List Document),
    FailsOnly HindersShowing (nestedItems depth around items)
  | _, _, [] => .ok _
  | depth, around, item :: rest => by
    unfold nestedItems
    exact (nested_failsOnly depth around item).bind fun _ _ =>
      (nestedItems_failsOnly depth around rest).bind fun _ _ => .ok _

theorem nestedEntries_failsOnly : ∀ (depth : Nat) (around : Around)
    (entries : List (Document × Document)),
    FailsOnly HindersShowing (nestedEntries depth around entries)
  | _, _, [] => .ok _
  | depth, around, (key, value) :: rest => by
    unfold nestedEntries
    exact (nested_failsOnly depth around key).bind fun _ _ =>
      (nested_failsOnly depth around value).bind fun _ _ =>
        (nestedEntries_failsOnly depth around rest).bind fun _ _ => .ok _

end

theorem display_failsOnly (d : Document) : FailsOnly HindersShowing d.display := by
  unfold display
  split
  · exact .ok _
  · exact .ok _
  · exact .ok _
  · exact nested_failsOnly 0 [] _

/-- A fault that comes of showing a document. -/
def ComesOfShowing (fault : Fault) : Prop :=
  fault = .rejected .tooManyDigits ∨ fault = .tooDeep .showing

theorem shown_failsOnly (d : Document) : FailsOnly ComesOfShowing d.shown :=
  (display_failsOnly d).mapError fun o ho => by
    obtain rfl | rfl := ho
    · exact .inl rfl
    · exact .inr rfl

/-- **A document that can be shown** in a message. -/
def CanBeShown (d : Document) : Prop := ∃ s, d.shown = .ok s

theorem canBeShown_of_isText {d : Document} (h : d.isText = true) : d.CanBeShown := by
  obtain ⟨s, rfl⟩ := exists_text_of_isText h
  exact ⟨s, rfl⟩

theorem exists_nestedItems {depth : Nat} {around : Around} {items : List Document}
    (h : ∀ item ∈ items, ∃ s, nested depth around item = .ok s) :
    ∃ parts, nestedItems depth around items = .ok parts := by
  induction items with
  | nil => exact ⟨[], rfl⟩
  | cons item rest ih =>
    obtain ⟨⟨first, hfirst⟩, hrest⟩ := List.forall_mem_cons.mp h
    obtain ⟨others, hothers⟩ := ih hrest
    exact ⟨_, bind_eq_ok_iff.mpr ⟨first, hfirst, bind_eq_ok_iff.mpr ⟨others, hothers, rfl⟩⟩⟩

theorem exists_nestedEntries {depth : Nat} {around : Around} {entries : List (Document × Document)}
    (hkeys : ∀ entry ∈ entries, entry.1.isText = true)
    (h : ∀ entry ∈ entries, ∃ s, nested depth around entry.2 = .ok s) :
    ∃ parts, nestedEntries depth around entries = .ok parts := by
  induction entries with
  | nil => exact ⟨[], rfl⟩
  | cons entry rest ih =>
    obtain ⟨key, value⟩ := entry
    obtain ⟨hkey, hkeys⟩ := List.forall_mem_cons.mp hkeys
    obtain ⟨⟨written, hwritten⟩, hrest⟩ := List.forall_mem_cons.mp h
    obtain ⟨others, hothers⟩ := ih hkeys hrest
    obtain ⟨s, rfl⟩ := exists_text_of_isText hkey
    exact ⟨_, bind_eq_ok_iff.mpr ⟨Text.quoted s, rfl, bind_eq_ok_iff.mpr ⟨written, hwritten,
      bind_eq_ok_iff.mpr ⟨others, hothers, rfl⟩⟩⟩⟩

/-- **A document within bounds is shown** inside others, if there are not too many around it. -/
theorem exists_nested (h : d.Within height bound) {depth : Nat} (around : Around)
    (hdepth : depth + height ≤ NestingLimits.showing) : ∃ s, nested depth around d = .ok s := by
  induction h generalizing depth around with
  | int digits =>
    unfold nested intText
    rw [if_pos digits]
    exact ⟨_, rfl⟩
  | list number parts ih =>
    unfold nested
    split
    · exact ⟨_, rfl⟩
    · have hparts := fun item hitem (around : Around) =>
        ih item hitem around (Nat.succ_add_eq_add_succ depth _ ▸ hdepth)
      obtain ⟨texts, htexts⟩ := exists_nestedItems fun item hitem => hparts item hitem _
      rw [if_neg (by omega), htexts]
      exact ⟨_, rfl⟩
  | map number keys parts ih =>
    unfold nested
    split
    · exact ⟨_, rfl⟩
    · have hparts := fun entry hentry (around : Around) =>
        ih entry hentry around (Nat.succ_add_eq_add_succ depth _ ▸ hdepth)
      obtain ⟨texts, htexts⟩ := exists_nestedEntries keys fun entry hentry => hparts entry hentry _
      rw [if_neg (by omega), htexts]
      exact ⟨_, rfl⟩
  | _ => exact ⟨_, rfl⟩

theorem exists_writtenOut (h : d.Within height bound) (hheight : height ≤ NestingLimits.showing) :
    ∃ s, d.writtenOut = .ok s :=
  exists_nested h [] (by omega)

theorem canBeShown_of_within (h : d.Within height bound) (hheight : height ≤ NestingLimits.showing) :
    d.CanBeShown := by
  obtain ⟨s, hs⟩ := exists_writtenOut h hheight
  cases h with
  | text s => exact ⟨s, rfl⟩
  | unpaired u => exact ⟨_, rfl⟩
  | _ => exact ⟨s, congrArg (Except.mapError _) hs⟩

end Document

/-! ## Writing -/

namespace Writing

theorem complete_append (v w : Writing) : (v ++ w).complete = (v.complete && w.complete) := by
  obtain ⟨s, _ | _⟩ := v <;> rfl

theorem complete_sayIf {chars : Except Obstacle (List Char)} (h : ∃ s, chars = .ok s) :
    (sayIf chars).complete = true := by
  obtain ⟨s, rfl⟩ := h
  rfl

theorem fault_eq_none {w : Writing} (h : w.complete = true) : Fault.ofWriting? w = none := by
  unfold complete at h
  rw [Fault.ofWriting?, Option.isNone_iff_eq_none.mp h]
  rfl

end Writing

namespace Json

open Document Writing

variable {height bound : Nat} {d : Document}

theorem writeScalar_int {n : Int} (h : Decimal.isWritable n = true) :
    writeScalar (.int n) = .ok (toString n).toList := by
  unfold writeScalar
  dsimp only
  rw [if_pos h]

/-- Nothing within bounds keeps what stands before it from being put out. -/
theorem complete_separator (h : d.Within height bound) (start : List Char) :
    (separator start d).complete = true := by
  have hstops : stopsEarly d = false := by
    cases h with
    | int digits =>
      unfold stopsEarly
      rw [writeScalar_int digits]
    | _ => rfl
  unfold separator
  rw [hstops]
  rfl

theorem complete_writeKey {key : Document} (h : key.isText = true) (f : List Char → List Char) :
    (sayIf ((writeKey key).map f)).complete = true := by
  obtain ⟨s, rfl⟩ := exists_text_of_isText h
  rfl

/-- What is around the parts of a list or map has numbers from their bound on. -/
theorem le_number_of_mem_around {id : Option Identity} {around : List Identity}
    (hnumber : ∀ i, id = some i → i.number < bound) (haround : ∀ i ∈ around, bound ≤ i.number) :
    (∀ i ∈ id.toList ++ around, boundInside bound id ≤ i.number)
      ∧ id.any around.contains = false := by
  cases id with
  | none => exact ⟨haround, rfl⟩
  | some i =>
    have hi := hnumber i rfl
    refine ⟨fun j hj => ?_, ?_⟩
    · obtain rfl | hj := List.mem_cons.mp hj
      · exact Nat.le_refl _
      · exact Nat.le_of_lt (Nat.lt_of_lt_of_le hi (haround j hj))
    · rw [Option.any_some, ← Bool.not_eq_true, List.contains_iff_mem]
      exact fun hmem => absurd (haround i hmem) (Nat.not_le_of_lt hi)

variable [NestingLimits]

theorem complete_writeItems {depth : Nat} {around : List Identity} {items : List Document}
    (h : ∀ item ∈ items, item.Within height bound)
    (hparts : ∀ item ∈ items, (write depth around item).complete = true) :
    (writeItems depth around items).complete = true := by
  induction items with
  | nil => rfl
  | cons item rest ih =>
    obtain ⟨hitem, hrest⟩ := List.forall_mem_cons.mp h
    obtain ⟨hfirst, hothers⟩ := List.forall_mem_cons.mp hparts
    unfold writeItems
    rw [complete_append, complete_append, complete_separator hitem, hfirst, ih hrest hothers]
    rfl

theorem complete_writeEntries {depth : Nat} {around : List Identity}
    {entries : List (Document × Document)} (hkeys : ∀ entry ∈ entries, entry.1.isText = true)
    (hparts : ∀ entry ∈ entries, (write depth around entry.2).complete = true) :
    (writeEntries depth around entries).complete = true := by
  induction entries with
  | nil => rfl
  | cons entry rest ih =>
    obtain ⟨hkey, hkeys⟩ := List.forall_mem_cons.mp hkeys
    obtain ⟨hfirst, hothers⟩ := List.forall_mem_cons.mp hparts
    unfold writeEntries writeEntry
    rw [complete_append, complete_append, complete_writeKey hkey, hfirst, ih hkeys hothers]
    rfl

/-- **A document within bounds is written** inside others, if there are not too many around it. -/
theorem complete_write (h : d.Within height bound) {depth : Nat} {around : List Identity}
    (hdepth : depth + height ≤ NestingLimits.writing .json) (haround : ∀ i ∈ around, bound ≤ i.number) :
    (write depth around d).complete = true := by
  induction h generalizing depth around with
  | int digits =>
    unfold write
    rw [writeScalar_int digits]
    rfl
  | @list height bound id items number parts ih =>
    obtain ⟨hinside, hfresh⟩ := le_number_of_mem_around number haround
    cases items with
    | nil => rfl
    | cons item rest =>
      have hparts : ∀ part ∈ item :: rest,
          (write (depth + 1) (id.toList ++ around) part).complete = true :=
        fun part hpart => ih part hpart (by omega) hinside
      obtain ⟨hitem, hrest⟩ := List.forall_mem_cons.mp parts
      obtain ⟨hfirst, hothers⟩ := List.forall_mem_cons.mp hparts
      unfold write
      rw [hfresh, if_neg Bool.false_ne_true, if_neg (by omega)]
      simp only [complete_append, complete_separator hitem, hfirst, complete_writeItems hrest hothers]
      rfl
  | @map height bound id entries number keys parts ih =>
    obtain ⟨hinside, hfresh⟩ := le_number_of_mem_around number haround
    cases entries with
    | nil => rfl
    | cons entry rest =>
      have hparts : ∀ part ∈ entry :: rest,
          (write (depth + 1) (id.toList ++ around) part.2).complete = true :=
        fun part hpart => ih part hpart (by omega) hinside
      obtain ⟨hkey, hkeys⟩ := List.forall_mem_cons.mp keys
      obtain ⟨hfirst, hothers⟩ := List.forall_mem_cons.mp hparts
      unfold write writeEntry
      rw [hfresh, if_neg Bool.false_ne_true, if_neg (by omega)]
      simp only [complete_append, complete_writeKey hkey, hfirst, complete_writeEntries hkeys hothers]
      rfl
  | _ => rfl

theorem complete_render (h : d.Within height bound) (hheight : height ≤ NestingLimits.writing .json) :
    (render d).complete = true := by
  unfold render
  rw [complete_append, complete_write h (by omega) (List.forall_mem_nil _)]
  rfl

end Json

namespace Yaml

open Document

variable [NestingLimits] {height bound : Nat} {d : Document}

namespace Survey

theorem exists_visit {depth : Nat} {parts : Survey → Except Obstacle Survey}
    (hdepth : depth < NestingLimits.writing .yaml) (h : ∀ s, ∃ s', parts s = .ok s')
    (id : Option Identity) (s : Survey) : ∃ s', s.visit depth id parts = .ok s' := by
  unfold visit
  split
  · exact ⟨_, rfl⟩
  · rw [if_neg (Nat.not_le_of_lt hdepth)]
    exact h _

theorem exists_addItems {depth : Nat} {items : List Document}
    (h : ∀ item ∈ items, ∀ s, ∃ s', add depth item s = .ok s') (s : Survey) :
    ∃ s', addItems depth items s = .ok s' := by
  induction items generalizing s with
  | nil => exact ⟨s, rfl⟩
  | cons item rest ih =>
    obtain ⟨hitem, hrest⟩ := List.forall_mem_cons.mp h
    obtain ⟨between, hfirst⟩ := hitem s
    obtain ⟨after, hothers⟩ := ih hrest between
    exact ⟨after, bind_eq_ok_iff.mpr ⟨between, hfirst, hothers⟩⟩

theorem exists_addEntries {depth : Nat} {entries : List (Document × Document)}
    (hkeys : ∀ entry ∈ entries, entry.1.isText = true)
    (h : ∀ entry ∈ entries, ∀ s, ∃ s', add depth entry.2 s = .ok s') (s : Survey) :
    ∃ s', addEntries depth entries s = .ok s' := by
  induction entries generalizing s with
  | nil => exact ⟨s, rfl⟩
  | cons entry rest ih =>
    obtain ⟨key, value⟩ := entry
    obtain ⟨hkey, hkeys⟩ := List.forall_mem_cons.mp hkeys
    obtain ⟨hvalue, hrest⟩ := List.forall_mem_cons.mp h
    obtain ⟨between, hfirst⟩ := hvalue s
    obtain ⟨after, hothers⟩ := ih hkeys hrest between
    obtain ⟨name, rfl⟩ := exists_text_of_isText hkey
    exact ⟨after, bind_eq_ok_iff.mpr ⟨s, rfl, bind_eq_ok_iff.mpr ⟨between, hfirst, hothers⟩⟩⟩

/-- **A document within bounds is surveyed** inside others, if there are not too many around it. -/
theorem exists_add (h : d.Within height bound) {depth : Nat}
    (hdepth : depth + height ≤ NestingLimits.writing .yaml) (s : Survey) : ∃ s', add depth d s = .ok s' := by
  induction h generalizing depth s with
  | int digits =>
    unfold add
    rw [if_pos digits]
    exact ⟨s, rfl⟩
  | list number parts ih =>
    unfold add
    refine exists_visit (by omega) (exists_addItems fun item hitem => ?_) _ s
    exact ih item hitem (by omega)
  | map number keys parts ih =>
    unfold add
    refine exists_visit (by omega) (exists_addEntries keys fun entry hentry => ?_) _ s
    exact ih entry hentry (by omega)
  | _ => exact ⟨s, rfl⟩

end Survey

theorem complete_render (h : d.Within height bound) (hheight : height ≤ NestingLimits.writing .yaml) :
    (render d).complete = true := by
  obtain ⟨survey, hsurvey⟩ :=
    Survey.exists_add h ((Nat.zero_add height).symm ▸ hheight) Survey.start
  refine Writing.complete_sayIf ?_
  unfold Outline.ofDocument
  rw [hsurvey]
  exact ⟨_, rfl⟩

end Yaml

namespace DataFormat

/-- **A document within bounds is written as a file** of a format that is written as deep. -/
theorem complete_write [NestingLimits] {height bound : Nat} {d : Document}
    (h : d.Within height bound) {format : DataFormat}
    (hheight : height ≤ NestingLimits.writing format) :
    (format.write d).complete = true := by
  cases format with
  | json => exact Json.complete_render h hheight
  | yaml => exact Yaml.complete_render h hheight

end DataFormat

/-! ## Telling of it in an event -/

variable [NestingLimits]

/-- How many lists and maps may lie inside one another in what is told in an event, in whatever form
events are shown. -/
def NestingLimits.telling : Nat := min logging showing

theorem NestingLimits.eight_le_telling : 8 ≤ NestingLimits.telling :=
  Nat.le_min.mpr ⟨eight_le_logging, eight_le_showing⟩

theorem NestingLimits.telling_le_showing : NestingLimits.telling ≤ showing := Nat.min_le_right _ _

namespace Document

variable {height bound : Nat} {d : Document}

theorem exists_plainItems {depth : Nat} {around : List Identity} {items : List Document}
    (h : ∀ item ∈ items, ∃ shown, plain depth around item = .ok shown) :
    ∃ shown, plainItems depth around items = .ok shown := by
  induction items with
  | nil => exact ⟨[], rfl⟩
  | cons item rest ih =>
    obtain ⟨⟨first, hfirst⟩, hrest⟩ := List.forall_mem_cons.mp h
    obtain ⟨others, hothers⟩ := ih hrest
    exact ⟨_, bind_eq_ok_iff.mpr ⟨first, hfirst, bind_eq_ok_iff.mpr ⟨others, hothers, rfl⟩⟩⟩

theorem exists_plainEntries {depth : Nat} {around : List Identity}
    {entries : List (Document × Document)} (hkeys : ∀ entry ∈ entries, entry.1.isText = true)
    (h : ∀ entry ∈ entries, ∃ shown, plain depth around entry.2 = .ok shown) :
    ∃ shown, plainEntries depth around entries = .ok shown := by
  induction entries with
  | nil => exact ⟨[], rfl⟩
  | cons entry rest ih =>
    obtain ⟨key, value⟩ := entry
    obtain ⟨hkey, hkeys⟩ := List.forall_mem_cons.mp hkeys
    obtain ⟨⟨first, hfirst⟩, hrest⟩ := List.forall_mem_cons.mp h
    obtain ⟨others, hothers⟩ := ih hkeys hrest
    obtain ⟨name, rfl⟩ := exists_text_of_isText hkey
    exact ⟨_, bind_eq_ok_iff.mpr ⟨name, rfl, bind_eq_ok_iff.mpr ⟨first, hfirst,
      bind_eq_ok_iff.mpr ⟨others, hothers, rfl⟩⟩⟩⟩

/-- **A document within bounds has a form in events** inside others, if there are not too many around
it. -/
theorem exists_plain (h : d.Within height bound) {depth : Nat} {around : List Identity}
    (hdepth : depth + height ≤ NestingLimits.logging) (haround : ∀ i ∈ around, bound ≤ i.number) :
    ∃ shown, plain depth around d = .ok shown := by
  induction h generalizing depth around with
  | int digits =>
    unfold plain
    rw [if_pos digits]
    exact ⟨_, rfl⟩
  | list number parts ih =>
    obtain ⟨hinside, hfresh⟩ := Json.le_number_of_mem_around number haround
    obtain ⟨shown, hshown⟩ := exists_plainItems fun item hitem =>
      ih item hitem (Nat.succ_add_eq_add_succ depth _ ▸ hdepth) hinside
    unfold plain
    split
    · exact ⟨_, rfl⟩
    · rw [hfresh, if_neg Bool.false_ne_true, if_neg (by omega), hshown]
      exact ⟨_, rfl⟩
  | map number keys parts ih =>
    obtain ⟨hinside, hfresh⟩ := Json.le_number_of_mem_around number haround
    obtain ⟨shown, hshown⟩ := exists_plainEntries keys fun entry hentry =>
      ih entry hentry (Nat.succ_add_eq_add_succ depth _ ▸ hdepth) hinside
    unfold plain
    split
    · exact ⟨_, rfl⟩
    · rw [hfresh, if_neg Bool.false_ne_true, if_neg (by omega), hshown]
      exact ⟨_, rfl⟩
  | _ => exact ⟨_, rfl⟩

end Document

namespace LogValue

/-- **What can be told in an event**, in JSON and to a reader. -/
structure CanBeTold (v : LogValue) : Prop where
  inEvent : ∃ shown, v.inEvent = .ok shown
  isShowable : v.isShowable = .ok ()

theorem canBeTold_count (n : Nat) : (count n).CanBeTold := ⟨⟨_, rfl⟩, rfl⟩

theorem canBeTold_text (s : String) : (document (.text s)).CanBeTold := ⟨⟨_, rfl⟩, rfl⟩

theorem canBeTold_of_within {height bound : Nat} {d : Document} (h : d.Within height bound)
    (hheight : height ≤ NestingLimits.telling) : (document d).CanBeTold := by
  obtain ⟨hlogging, hshowing⟩ := Nat.le_min.mp hheight
  obtain ⟨shown, hshown⟩ :=
    Document.exists_plain h ((Nat.zero_add height).symm ▸ hlogging) (List.forall_mem_nil _)
  obtain ⟨text, htext⟩ := Document.exists_writtenOut h hshowing
  have hreader : d.writtenOut.map (fun _ => ()) = .ok () := by rw [htext]; rfl
  cases h with
  | text s => exact canBeTold_text s
  | _ => exact ⟨⟨shown, hshown⟩, hreader⟩

end LogValue

namespace LogEvent

/-- An event all of whose fields can be told. -/
def CanBeTold (e : LogEvent) : Prop := ∀ field ∈ e.fields, field.2.CanBeTold

theorem exists_lineFields {fields : List (String × LogValue)}
    (h : ∀ field ∈ fields, field.2.CanBeTold) : ∃ shown, lineFields fields = .ok shown := by
  induction fields with
  | nil => exact ⟨[], rfl⟩
  | cons field rest ih =>
    obtain ⟨name, value⟩ := field
    obtain ⟨hfield, hrest⟩ := List.forall_mem_cons.mp h
    obtain ⟨shown, hshown⟩ := hfield.inEvent
    obtain ⟨others, hothers⟩ := ih hrest
    exact ⟨_, bind_eq_ok_iff.mpr ⟨shown, hshown, bind_eq_ok_iff.mpr ⟨others, hothers, rfl⟩⟩⟩

theorem showFields_eq_ok {fields : List (String × LogValue)}
    (h : ∀ field ∈ fields, field.2.CanBeTold) : showFields fields = .ok () := by
  induction fields with
  | nil => rfl
  | cons field rest ih =>
    obtain ⟨name, value⟩ := field
    obtain ⟨hfield, hrest⟩ := List.forall_mem_cons.mp h
    exact bind_eq_ok_iff.mpr ⟨(), hfield.isShowable, ih hrest⟩

end LogEvent

namespace LogSetup

/-- **An event that can be told is shown**, or left out. -/
theorem exists_line? (s : LogSetup) {e : LogEvent} (h : s.threshold ≤ e.level.number → e.CanBeTold) :
    ∃ line, s.line? e = .ok line := by
  unfold line?
  by_cases hlevel : e.level.number < s.threshold
  · exact ⟨none, if_pos hlevel⟩
  · have htold := h (Nat.le_of_not_lt hlevel)
    rw [if_neg hlevel]
    by_cases hform : s.form = "json"
    · obtain ⟨shown, hshown⟩ := LogEvent.exists_lineFields htold
      rw [if_pos hform, LogEvent.line, hshown]
      exact ⟨_, rfl⟩
    · rw [if_neg hform, LogEvent.showReader, LogEvent.showFields_eq_ok htold]
      exact ⟨_, rfl⟩

/-- **A log that can show events**: those that are not below its threshold can be told. -/
def CanShow (s : LogSetup) (events : List LogEvent) : Prop :=
  ∀ e ∈ events, s.threshold ≤ e.level.number → e.CanBeTold

/-- **Events that a log can show are shown**, all of them. -/
theorem fault_shown_eq_none (s : LogSetup) {events : List LogEvent} (h : s.CanShow events) :
    (s.shown events).fault = none := by
  induction events with
  | nil => rfl
  | cons e rest ih =>
    obtain ⟨he, hrest⟩ := List.forall_mem_cons.mp h
    obtain ⟨line, hline⟩ := s.exists_line? he
    rw [shown, hline]
    exact ih hrest

end LogSetup

end SlotSafe
