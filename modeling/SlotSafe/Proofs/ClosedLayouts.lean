import Mathlib.Data.String.Basic
import SlotSafe.Proofs.Coverage
import SlotSafe.Proofs.Showing
import SlotSafe.Proofs.Snapshots
import SlotSafe.Report

/-!
# What closure under types is good for

A layout is closed under its types by its type: there is no other way to have one than to have passed
the check of `Layout.ofParts`, or to have joined or extracted layouts so that the check would be
passed (`ofParts_joined`, `ofParts_layoutOf`). The check names the missing keys, each once and in
order (`namesMissing_of_ofParts`).

Whatever is asked of two layouts then finds its labels. Every step of an alignment speaks of
variables of the two layouts, each on its own side (`speaks_of_mem_operations`), so that the label of
its type stands in the table in which it is looked up. **What can still go wrong is that a value
cannot be compared or shown, and nothing else** (`closed_layouts_answer`): an integer may have too
many digits, and lists may lie too deep in one another. Texts can always be compared and shown.
-/

namespace SlotSafe

namespace Layout

/-! ## The check of the parts -/

/-- A layout passes the check that its own parts are put to. -/
theorem ofParts_eq_ok (l : Layout) : ofParts l.items l.types = .ok l := dif_pos l.closed

/-- **Joined layouts pass the check.** -/
theorem ofParts_joined (layouts : List Layout) :
    ofParts (joinedItems layouts) (joinedTypes layouts) = .ok (concat layouts) :=
  ofParts_eq_ok (concat layouts)

/-- **Declarations pass the check.** -/
theorem ofParts_layoutOf (ds : List Extraction.Declaration) :
    ofParts (ds.map Extraction.Declaration.item) (.ofList (ds.map Extraction.Declaration.typeEntry))
      = .ok (Extraction.layoutOf ds) :=
  ofParts_eq_ok (Extraction.layoutOf ds)

/-- **The label of an item's type is one of the labels.** -/
theorem exists_entry_labelOf (l : Layout) {item : Item} (hitem : item ∈ l.items) :
    ∃ entry ∈ l.types.entries, entry.2 = l.labelOf item := by
  have hcontains := l.closed item hitem
  rw [Table.contains_eq_isSome_find?, Option.isSome_iff_exists] at hcontains
  obtain ⟨label, hlabel⟩ := hcontains
  obtain ⟨entry, hentry, -, rfl⟩ := Table.exists_of_find? hlabel
  refine ⟨entry, hentry, ?_⟩
  rw [labelOf, hlabel]
  rfl

/-! ## The missing keys -/

theorem nodup_eraseDups {α : Type} [BEq α] [LawfulBEq α] (as : List α) : as.eraseDups.Nodup := by
  induction hn : as.length using Nat.strong_induction_on generalizing as with
  | _ n ih =>
    cases as with
    | nil => exact List.nodup_nil
    | cons a rest =>
      have hshorter : (rest.filter fun b => !b == a).length < n := by
        rw [← hn, List.length_cons]
        exact Nat.lt_succ_of_le (List.length_filter_le _ _)
      rw [List.eraseDups_cons, List.nodup_cons]
      refine ⟨?_, ih _ hshorter _ rfl⟩
      simp [List.mem_eraseDups]

/-- Names in order, each once. -/
theorem pairwise_mergeSort_eraseDups (names : List String) :
    (names.eraseDups.mergeSort fun a b => a ≤ b).Pairwise (· < ·) := by
  have htrans (a b c : String) (hab : decide (a ≤ b) = true) (hbc : decide (b ≤ c) = true) :
      decide (a ≤ c) = true :=
    decide_eq_true (le_trans (of_decide_eq_true hab) (of_decide_eq_true hbc))
  have htotal (a b : String) : (decide (a ≤ b) || decide (b ≤ a)) = true := by
    simpa using le_total a b
  have hsorted := List.pairwise_mergeSort htrans htotal names.eraseDups
  have hnodup := ((List.mergeSort_perm names.eraseDups fun a b => a ≤ b).nodup_iff).mpr
    (nodup_eraseDups names)
  exact (hsorted.and hnodup).imp fun ⟨hle, hne⟩ => lt_of_le_of_ne (of_decide_eq_true hle) hne

/-- Texts are known by their characters. -/
theorem exists_names {ds : List Document} (h : ∀ d ∈ ds, d.isText = true) :
    ∃ names : List String, ds = names.map Document.text := by
  induction ds with
  | nil => exact ⟨[], rfl⟩
  | cons d rest ih =>
    obtain ⟨hd, hrest⟩ := List.forall_mem_cons.mp h
    obtain ⟨name, rfl⟩ := Document.exists_text_of_isText hd
    obtain ⟨names, rfl⟩ := ih hrest
    exact ⟨name :: names, rfl⟩

theorem mapM_text? (names : List String) :
    (names.map Document.text).mapM Document.text? = some names := by
  induction names with
  | nil => rfl
  | cons name rest ih => rw [List.map_cons, List.mapM_cons, ih]; rfl

/-- **A fault that names the missing type keys of items**: all of them, each once and in order. -/
def NamesMissing (items : List Item) (types : Table Document) (fault : Fault) : Prop :=
  ∃ names : List String, fault = .malformed (.unknownTypes names) ∧ names ≠ []
    ∧ names.Pairwise (· < ·)
    ∧ ∀ name, name ∈ names ↔ ∃ item ∈ items, item.type = .text name ∧ types.contains item.type = false

/-- **Parts that do not pass the check** fail it by their missing type keys. -/
theorem namesMissing_of_ofParts {items : List Item} {types : Table Document} {fault : Fault}
    (htexts : ∀ item ∈ items, item.type.isText = true) (h : ofParts items types = .error fault) :
    NamesMissing items types fault := by
  have hmissing : ∀ key ∈ missingTypes items types, key.isText = true := by
    intro key hkey
    obtain ⟨item, hitem, rfl⟩ := List.mem_map.mp hkey
    exact htexts item (List.mem_filter.mp hitem).1
  obtain ⟨names, hnames⟩ := exists_names hmissing
  have hkeys : items.all (fun item => item.type.isKey) = true := by
    refine List.all_eq_true.mpr fun item hitem => ?_
    obtain ⟨s, hs⟩ := Document.exists_text_of_isText (htexts item hitem)
    rw [hs]
    rfl
  have hmem (name : String) : name ∈ names.eraseDups.mergeSort (fun a b => a ≤ b)
      ↔ ∃ item ∈ items, item.type = .text name ∧ types.contains item.type = false := by
    rw [(List.mergeSort_perm _ _).mem_iff, List.mem_eraseDups,
      ← List.mem_map_of_injective (f := Document.text) (fun _ _ h => Document.text.inj h), ← hnames]
    simp only [missingTypes, List.mem_map, List.mem_filter, Bool.not_eq_true']
    exact ⟨fun ⟨item, ⟨hitem, hopen⟩, htype⟩ => ⟨item, hitem, htype, hopen⟩,
      fun ⟨item, hitem, htype, hopen⟩ => ⟨item, ⟨hitem, hopen⟩, htype⟩⟩
  unfold ofParts at h
  split at h
  · cases h
  · next hopen =>
    obtain rfl := Except.error.inj h
    refine ⟨names.eraseDups.mergeSort fun a b => a ≤ b, ?_, ?_, pairwise_mergeSort_eraseDups names, hmem⟩
    · rw [missingFault, if_pos hkeys, hnames, mapM_text?]
    · push Not at hopen
      obtain ⟨item, hitem, hcontains⟩ := hopen
      obtain ⟨name, hname⟩ := Document.exists_text_of_isText (htexts item hitem)
      exact List.ne_nil_of_mem ((hmem name).mpr ⟨item, hitem, hname, eq_false_of_ne_true hcontains⟩)

end Layout

/-! ## Steps -/

namespace Upgrade

/-- What a pair of items is, the labels of their types being looked up. -/
def classifyLookedUp (original updated : Layout) (o u : Item) : Except Fault String := do
  let before ← original.typeLabel o
  let after ← updated.typeLabel u
  let names := o.label == u.label
  let types := before == after
  .ok (if types && names then Action.equal
    else if types then Action.typechange
    else if names then Action.rename
    else Action.replace)

variable {original updated : Layout}

/-- **A pair of items of two layouts is classified**: the labels of their types are found. -/
theorem classifyLookedUp_eq_ok {o u : Item} (ho : o ∈ original.items) (hu : u ∈ updated.items) :
    classifyLookedUp original updated o u = .ok (classify original updated o u) := by
  unfold classifyLookedUp
  rw [original.typeLabel_eq_labelOf ho, updated.typeLabel_eq_labelOf hu]
  rfl

/-- **A step that speaks of variables of two layouts**, each on its own side. -/
structure Speaks (original updated : Layout) (c : Change Item) : Prop where
  original : ∀ o, c.original = some o → o ∈ original.items
  updated : ∀ u, c.updated = some u → u ∈ updated.items

/-- **Every operation speaks of variables of the two layouts.** -/
theorem speaks_of_mem_operations {c : Change Item} (h : c ∈ operations original updated) :
    Speaks original updated c := by
  obtain ⟨horiginals, added, -, hupdated⟩ := Alignment.align_accounts_for
    (classify_ne_append original updated) original.items updated.items
  refine ⟨fun o ho => ?_, fun u hu => ?_⟩
  · rw [← horiginals]
    exact List.mem_filterMap.mpr ⟨c, h, ho⟩
  · rw [← hupdated]
    exact List.mem_append_left added (List.mem_filterMap.mpr ⟨c, h, hu⟩)

theorem speaks_of_subset {changes : List (Change Item)} (h : changes ⊆ operations original updated) :
    ∀ c ∈ changes, Speaks original updated c := fun _ hc => speaks_of_mem_operations (h hc)

end Upgrade

/-! ## Reports -/

namespace Report

open Upgrade Document

variable [NestingLimits]

/-- **An item that can be described**: its name, the label of its type and its place can be shown. -/
structure Describable (l : Layout) (item : Item) : Prop where
  label : item.label.CanBeShown
  type : (l.labelOf item).CanBeShown
  src : item.src.CanBeShown

variable {l original updated : Layout}

/-- The description of an item of a layout finds its label. -/
theorem describe_eq {item : Item} (h : item ∈ l.items) : describe l item = (do
    let name ← item.label.shown
    let type ← (l.labelOf item).shown
    .ok (name ++ " (" ++ type ++ ") at " ++ (← item.src.shown))) := by
  unfold describe
  rw [l.typeLabel_eq_labelOf h]
  rfl

theorem exists_describe_iff {item : Item} (h : item ∈ l.items) :
    (∃ s, describe l item = .ok s) ↔ Describable l item := by
  rw [describe_eq h]
  constructor
  · rintro ⟨s, hs⟩
    obtain ⟨name, hname, hs⟩ := bind_eq_ok_iff.mp hs
    obtain ⟨type, htype, hs⟩ := bind_eq_ok_iff.mp hs
    obtain ⟨place, hplace, -⟩ := bind_eq_ok_iff.mp hs
    exact ⟨⟨name, hname⟩, ⟨type, htype⟩, ⟨place, hplace⟩⟩
  · rintro ⟨⟨name, hname⟩, ⟨type, htype⟩, ⟨place, hplace⟩⟩
    exact ⟨_, bind_eq_ok_iff.mpr ⟨name, hname, bind_eq_ok_iff.mpr ⟨type, htype,
      bind_eq_ok_iff.mpr ⟨place, hplace, rfl⟩⟩⟩⟩

theorem describe_failsOnly {item : Item} (h : item ∈ l.items) :
    FailsOnly ComesOfShowing (describe l item) := by
  rw [describe_eq h]
  exact (shown_failsOnly _).bind fun _ _ => (shown_failsOnly _).bind fun _ _ =>
    (shown_failsOnly _).bind fun _ _ => .ok _

/-- **A step that can be told**: what stands on its sides can be described. -/
structure Tellable (original updated : Layout) (c : Change Item) : Prop where
  original : ∀ o, c.original = some o → Describable original o
  updated : ∀ u, c.updated = some u → Describable updated u

theorem exists_stepText_iff {c : Change Item} (hc : Speaks original updated c) :
    (∃ s, stepText original updated c = .ok s) ↔ Tellable original updated c := by
  have htellable : Tellable original updated c
      ↔ (∀ o, c.original = some o → ∃ s, describe original o = .ok s)
        ∧ ∀ u, c.updated = some u → ∃ s, describe updated u = .ok s :=
    ⟨fun h => ⟨fun o ho => (exists_describe_iff (hc.original o ho)).mpr (h.original o ho),
        fun u hu => (exists_describe_iff (hc.updated u hu)).mpr (h.updated u hu)⟩,
      fun h => ⟨fun o ho => (exists_describe_iff (hc.original o ho)).mp (h.1 o ho),
        fun u hu => (exists_describe_iff (hc.updated u hu)).mp (h.2 u hu)⟩⟩
  rw [htellable]
  obtain ⟨action, before, after⟩ := c
  cases before <;> cases after <;>
    simp [stepText, exists_bind_eq_ok_iff, pure, Except.pure]

theorem stepText_failsOnly {c : Change Item} (hc : Speaks original updated c) :
    FailsOnly ComesOfShowing (stepText original updated c) := by
  obtain ⟨action, before, after⟩ := c
  match before, after with
  | none, none => exact .ok _
  | some o, none => exact (describe_failsOnly (hc.original o rfl)).bind fun _ _ => .ok _
  | none, some u => exact (describe_failsOnly (hc.updated u rfl)).bind fun _ _ => .ok _
  | some o, some u =>
    exact (describe_failsOnly (hc.original o rfl)).bind fun _ _ =>
      (describe_failsOnly (hc.updated u rfl)).bind fun _ _ => .ok _

theorem exists_stepLines_iff {changes : List (Change Item)}
    (hchanges : ∀ c ∈ changes, Speaks original updated c) :
    (∃ lines, stepLines original updated changes = .ok lines)
      ↔ ∀ c ∈ changes, Tellable original updated c := by
  induction changes with
  | nil => simp [stepLines]
  | cons c rest ih =>
    obtain ⟨hc, hrest⟩ := List.forall_mem_cons.mp hchanges
    rw [List.forall_mem_cons, ← ih hrest, ← exists_stepText_iff hc]
    simp [stepLines, exists_bind_eq_ok_iff]

theorem stepLines_failsOnly {changes : List (Change Item)}
    (hchanges : ∀ c ∈ changes, Speaks original updated c) :
    FailsOnly ComesOfShowing (stepLines original updated changes) := by
  induction changes with
  | nil => exact .ok _
  | cons c rest ih =>
    obtain ⟨hc, hrest⟩ := List.forall_mem_cons.mp hchanges
    exact (stepText_failsOnly hc).bind fun _ _ => (ih hrest).bind fun _ _ => .ok _

/-- **An alignment can be told exactly when each of its steps can.** -/
theorem exists_operationsText_iff {changes : List (Change Item)}
    (hchanges : ∀ c ∈ changes, Speaks original updated c) :
    (∃ text, operationsText original updated changes = .ok text)
      ↔ ∀ c ∈ changes, Tellable original updated c := by
  rw [← exists_stepLines_iff hchanges]
  cases changes with
  | nil => exact ⟨fun _ => ⟨[], rfl⟩, fun _ => ⟨_, rfl⟩⟩
  | cons c rest => simp [operationsText, exists_bind_eq_ok_iff]

theorem operationsText_failsOnly {changes : List (Change Item)}
    (hchanges : ∀ c ∈ changes, Speaks original updated c) :
    FailsOnly ComesOfShowing (operationsText original updated changes) := by
  unfold operationsText
  split
  · exact .ok _
  · exact (stepLines_failsOnly hchanges).bind fun _ _ => .ok _

end Report

/-! ## Layouts that are shown as texts -/

/-- **A layout that is shown as texts**: its names, the labels of its types and its places are
texts. -/
structure Layout.ShownAsTexts (l : Layout) : Prop where
  labels : ∀ item ∈ l.items, item.label.isText = true
  srcs : ∀ item ∈ l.items, item.src.isText = true
  types : ∀ entry ∈ l.types.entries, entry.2.isText = true

namespace Layout.ShownAsTexts

variable {l original updated : Layout}

theorem isText_labelOf (h : l.ShownAsTexts) {item : Item} (hitem : item ∈ l.items) :
    (l.labelOf item).isText = true := by
  obtain ⟨entry, hentry, hlabel⟩ := l.exists_entry_labelOf hitem
  exact hlabel ▸ h.types entry hentry

theorem describable [NestingLimits] (h : l.ShownAsTexts) {item : Item} (hitem : item ∈ l.items) :
    Report.Describable l item where
  label := Document.canBeShown_of_isText (h.labels item hitem)
  type := Document.canBeShown_of_isText (h.isText_labelOf hitem)
  src := Document.canBeShown_of_isText (h.srcs item hitem)

/-- **Texts are compared**, however the layouts are made of them. -/
theorem mustCompare_eq_ok [NestingLimits] (h : original.ShownAsTexts) (updated : Layout) :
    Upgrade.mustCompare original updated = .ok () := by
  refine if_pos (List.all_eq_true.mpr fun o ho => List.all_eq_true.mpr fun u _ => ?_)
  rw [Document.comparesWithin_of_isText (h.labels o ho),
    Document.comparesWithin_of_isText (h.isText_labelOf ho)]
  rfl

end Layout.ShownAsTexts

namespace Upgrade

open Report Layout

variable {original updated : Layout}

/-- **What is asked of two layouts is answered.** -/
structure Answers [NestingLimits] (original updated : Layout) : Prop where
  /-- Every pair of their items is classified. -/
  classified : ∀ o ∈ original.items, ∀ u ∈ updated.items,
    classifyLookedUp original updated o u = .ok (classify original updated o u)
  /-- Names and labels are told apart unless they lie too deep. -/
  compared : FailsOnly (fun fault => fault = .tooDeep .comparing) (mustCompare original updated)
  /-- Any choice of the operations is told if what stands in them can be shown. -/
  told : ∀ changes ⊆ operations original updated,
    ((∃ text, operationsText original updated changes = .ok text)
      ↔ ∀ c ∈ changes, Tellable original updated c)
    ∧ FailsOnly Document.ComesOfShowing (operationsText original updated changes)
  /-- Nothing of that fails where texts are shown. -/
  texts : original.ShownAsTexts → updated.ShownAsTexts → mustCompare original updated = .ok ()
    ∧ ∀ changes ⊆ operations original updated,
      ∃ text, operationsText original updated changes = .ok text

theorem answers [NestingLimits] (original updated : Layout) : Answers original updated where
  classified o ho u hu := classifyLookedUp_eq_ok ho hu
  compared := by
    unfold mustCompare
    split
    · exact .ok _
    · exact .error rfl
  told changes hchanges :=
    ⟨exists_operationsText_iff (speaks_of_subset hchanges),
      operationsText_failsOnly (speaks_of_subset hchanges)⟩
  texts horiginal hupdated := by
    refine ⟨horiginal.mustCompare_eq_ok updated, fun changes hchanges => ?_⟩
    have hspeaks := speaks_of_subset hchanges
    refine (exists_operationsText_iff hspeaks).mpr fun c hc => ?_
    exact ⟨fun o ho => horiginal.describable ((hspeaks c hc).original o ho),
      fun u hu => hupdated.describable ((hspeaks c hc).updated u hu)⟩

/-- **Every layout is closed under its types, so what is asked of layouts is answered.** Layouts are
joined, and declarations are made into one, without failing the check that parts are put to; parts
whose type keys are texts fail it by the missing ones alone. Of any two layouts the pairs are
classified, and what is made of their operations fails at nothing but values that cannot be compared
or shown, which texts always can. -/
theorem closed_layouts_answer [NestingLimits] :
    (∀ l : Layout, ∀ item ∈ l.items, l.types.contains item.type = true)
    ∧ (∀ layouts, ofParts (joinedItems layouts) (joinedTypes layouts) = .ok (concat layouts))
    ∧ (∀ ds : List Extraction.Declaration,
      ofParts (ds.map Extraction.Declaration.item)
        (.ofList (ds.map Extraction.Declaration.typeEntry)) = .ok (Extraction.layoutOf ds))
    ∧ (∀ (items : List Item) (types : Table Document) (fault : Fault),
      (∀ item ∈ items, item.type.isText = true) → ofParts items types = .error fault →
        NamesMissing items types fault)
    ∧ ∀ original updated : Layout, Answers original updated :=
  ⟨closed, ofParts_joined, ofParts_layoutOf, fun _ _ _ => namesMissing_of_ofParts, answers⟩

/-- A type that is changed is told, and a variable of a type without a label is no layout. -/
theorem closed_layouts_answer_sample :
    (∃ text, operationsText (.ofFields [("a", "uint256")]) (.ofFields [("a", "bool")])
      (operations (.ofFields [("a", "uint256")]) (.ofFields [("a", "bool")])) = .ok text)
    ∧ NamesMissing [⟨.text "C", .text "a", .text "bool", .text "A:1"⟩] .empty
        (missingFault [⟨.text "C", .text "a", .text "bool", .text "A:1"⟩] .empty) := by
  obtain ⟨-, -, -, hmissing, hanswers⟩ := closed_layouts_answer
  have hshown (type : String) : (ofFields [("a", type)]).ShownAsTexts :=
    ⟨List.forall_mem_singleton.mpr rfl, List.forall_mem_singleton.mpr rfl,
      List.forall_mem_singleton.mpr rfl⟩
  constructor
  · exact ((hanswers _ _).texts (hshown "uint256") (hshown "bool")).2 _ (List.Subset.refl _)
  · refine hmissing _ _ _ (List.forall_mem_singleton.mpr rfl) (dif_neg fun h => ?_)
    exact absurd (h _ (List.mem_singleton.mpr rfl)) Bool.false_ne_true

/-- **A variable that cannot be described keeps an upgrade from being told**, since every variable of
the original layout stands in an operation. -/
theorem not_exists_operationsText [NestingLimits] {item : Item} (hitem : item ∈ original.items)
    (h : ¬Describable original item) :
    ¬∃ text, operationsText original updated (operations original updated) = .ok text := by
  rw [exists_operationsText_iff (speaks_of_subset (List.Subset.refl _))]
  intro htellable
  obtain ⟨horiginals, -⟩ := Alignment.align_accounts_for
    (classify_ne_append original updated) original.items updated.items
  rw [← horiginals] at hitem
  obtain ⟨c, hc, horiginal⟩ := List.mem_filterMap.mp hitem
  exact h ((htellable c hc).original item horiginal)

/-- A snapshot whose only variable has a number as its name. -/
def numberedSnapshot (n : Int) : Document :=
  .record [
    ("storage", .row [.record [("contract", .text "C"), ("label", .int n), ("type", .text "t"),
      ("src", .text "A:1")]]),
    ("types", .record [("t", .record [("label", .text "uint256")])])]

/-- **Not everything that is asked of a layout is answered**, though its type keys are texts: a
number of more than 4300 digits is a name that cannot be shown. -/
theorem operationsText_of_numberedSnapshot :
    ∃ l, Layout.ofDocument (numberedSnapshot (Nat.pow 10 4300)) = .ok l
      ∧ (∀ item ∈ l.items, item.type.isText = true)
      ∧ ¬∃ text, operationsText l l (operations l l) = .ok text := by
  have hlong : Decimal.isWritable (Nat.pow 10 4300) = false := by decide +kernel
  generalize (Nat.pow 10 4300 : Int) = n at hlong ⊢
  refine ⟨⟨[⟨.text "C", .int n, .text "t", .text "A:1"⟩], ⟨[(.text "t", .text "uint256")]⟩,
    List.forall_mem_singleton.mpr rfl⟩, rfl, List.forall_mem_singleton.mpr rfl, ?_⟩
  refine not_exists_operationsText (List.mem_singleton.mpr rfl) fun h => ?_
  obtain ⟨s, hs⟩ := h.label
  have hfails : (Document.int n).shown = .error (.rejected .tooManyDigits) := by
    show (Document.intText n).mapError _ = _
    rw [Document.intText, if_neg (by simp [hlong])]
    rfl
  rw [hfails] at hs
  cases hs

end Upgrade

end SlotSafe
