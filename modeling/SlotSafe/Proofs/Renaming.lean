import Mathlib.Data.List.Basic
import Mathlib.Logic.Function.Basic
import SlotSafe.Document.Access

/-!
# Renaming identities

`Document.rename σ` gives every part of a document another identity, and a renaming keeps identities
apart. So whatever is asked of documents is answered for renamed ones as for the original ones: the
same keys find the same (`sameKey_rename`), the same documents are equal (`beq_rename`), and what is
reached from a renamed document is what was reached, renamed (`member_rename` and the lemmas beside
it).

Identities are compared and never looked into, so each of these is a case analysis along the
definition it is about. What is shown of a document does not hold an identity at all; it depends on
which lists and maps lie inside themselves, and that does not change (`shown_rename`).
-/

namespace SlotSafe

/-- **A renaming of identities**, which keeps them apart. -/
structure Renaming where
  new : Identity → Identity
  injective : Function.Injective new

variable {σ : Renaming}

/-! ## Steps in a row -/

section

variable {ε α α' β β' : Type}

/-- **Steps in a row carry along what each step does.** -/
theorem bind_rename {x : Except ε α} {x' : Except ε α'} {f : α → Except ε β}
    {f' : α' → Except ε β'} {r : α → α'} {s : β → β'} (hx : x' = x.map r)
    (hf : ∀ a, f' (r a) = (f a).map s) : (x' >>= f') = (x >>= f).map s := by
  rw [hx]
  cases x with
  | error e => rfl
  | ok a => exact hf a

/-- A first step whose result holds no identity. -/
theorem bind_rename_of_same {x x' : Except ε α} {f : α → Except ε β}
    {f' : α → Except ε β'} {s : β → β'} (hx : x' = x) (hf : ∀ a, f' a = (f a).map s) :
    (x' >>= f') = (x >>= f).map s := by
  rw [hx]
  cases x with
  | error e => rfl
  | ok a => exact hf a

/-- Steps in a row of which the last result holds no identity. -/
theorem bind_rename_to_same {x : Except ε α} {x' : Except ε α'} {f : α → Except ε β}
    {f' : α' → Except ε β} {r : α → α'} (hx : x' = x.map r) (hf : ∀ a, f' (r a) = f a) :
    (x' >>= f') = x >>= f := by
  rw [hx]
  cases x with
  | error e => rfl
  | ok a => exact hf a

end

namespace Document

/-! ## Renaming -/

mutual

/-- A document with other identities. -/
def rename (σ : Renaming) : Document → Document
  | nan id => nan (σ.new id)
  | moment id m => moment (σ.new id) m
  | pair a b => pair (rename σ a) (rename σ b)
  | list id items => list (id.map σ.new) (renameItems σ items)
  | map id entries => map (id.map σ.new) (renameEntries σ entries)
  | set id members => set (σ.new id) (renameItems σ members)
  | knot id body => knot (σ.new id) (rename σ body)
  | loop id => loop (σ.new id)
  | d => d

/-- Items with other identities. -/
def renameItems (σ : Renaming) : List Document → List Document
  | [] => []
  | d :: rest => rename σ d :: renameItems σ rest

/-- Entries with other identities. -/
def renameEntries (σ : Renaming) : List (Document × Document) → List (Document × Document)
  | [] => []
  | (k, d) :: rest => (rename σ k, rename σ d) :: renameEntries σ rest

end

/-- An entry with other identities. -/
def renameEntry (σ : Renaming) (entry : Document × Document) : Document × Document :=
  (entry.1.rename σ, entry.2.rename σ)

theorem renameItems_eq (items : List Document) : renameItems σ items = items.map (rename σ) := by
  induction items with
  | nil => rfl
  | cons d rest ih => rw [renameItems, ih, List.map_cons]

theorem renameEntries_eq (entries : List (Document × Document)) :
    renameEntries σ entries = entries.map (renameEntry σ) := by
  induction entries with
  | nil => rfl
  | cons entry rest ih =>
    obtain ⟨k, d⟩ := entry
    rw [renameEntries, ih, List.map_cons]
    rfl

@[simp] theorem rename_text (s : String) : (text s).rename σ = text s := rfl

@[simp] theorem rename_list (id : Option Identity) (items : List Document) :
    (list id items).rename σ = list (id.map σ.new) (items.map (rename σ)) := by
  rw [rename, renameItems_eq]

@[simp] theorem rename_map (id : Option Identity) (entries : List (Document × Document)) :
    (map id entries).rename σ = map (id.map σ.new) (entries.map (renameEntry σ)) := by
  rw [rename, renameEntries_eq]

@[simp] theorem rename_set (id : Identity) (members : List Document) :
    (set id members).rename σ = set (σ.new id) (members.map (rename σ)) := by
  rw [rename, renameItems_eq]

/-! ## Identity -/

theorem identity?_rename (d : Document) : (d.rename σ).identity? = d.identity?.map σ.new := by
  cases d <;> rfl

theorem is_rename (a b : Document) : (a.rename σ).is (b.rename σ) = a.is b := by
  unfold is
  rw [identity?_rename, identity?_rename, Option.isSome_map]
  congr 1
  rw [Bool.eq_iff_iff, beq_iff_eq, beq_iff_eq, (Option.map_injective σ.injective).eq_iff]

mutual

/-- **Tying a renamed knot** is renaming the tied one. -/
theorem tie_rename (id : Identity) (whole : Document) : ∀ d : Document,
    tie (σ.new id) (whole.rename σ) (d.rename σ) = (tie id whole d).rename σ
  | loop i => by
    -- a loop is tied where its identity is that of the knot, and identities are kept apart
    by_cases h : i = id
    · simp [rename, tie, h]
    · simp [rename, tie, h, σ.injective.ne h]
  | pair a b => by simp only [rename, tie, tie_rename id whole a, tie_rename id whole b]
  | list i items => by simp only [rename, tie, tieItems_rename id whole items]
  | map i entries => by simp only [rename, tie, tieEntries_rename id whole entries]
  | knot i body => by
    by_cases h : i = id
    · simp [rename, tie, h]
    · simp [rename, tie, h, σ.injective.ne h, tie_rename id whole body]
  | null | bool _ | int _ | float _ | nan _ | text _ | unpaired _ | octets _ | moment _ _
  | set _ _ => rfl

theorem tieItems_rename (id : Identity) (whole : Document) : ∀ items : List Document,
    tieItems (σ.new id) (whole.rename σ) (renameItems σ items)
      = renameItems σ (tieItems id whole items)
  | [] => rfl
  | d :: rest => by
    simp only [renameItems, tieItems, tie_rename id whole d, tieItems_rename id whole rest]

theorem tieEntries_rename (id : Identity) (whole : Document) :
    ∀ entries : List (Document × Document),
      tieEntries (σ.new id) (whole.rename σ) (renameEntries σ entries)
        = renameEntries σ (tieEntries id whole entries)
  | [] => rfl
  | (k, d) :: rest => by
    simp only [renameEntries, tieEntries, tie_rename id whole d, tieEntries_rename id whole rest]

end

theorem unrolled_rename (d : Document) : (d.rename σ).unrolled = d.unrolled.rename σ := by
  cases d with
  | knot id body => exact tie_rename id (knot id body) body
  | _ => rfl

end Document

/-! ## Keys -/

/-- A key with other identities. -/
def Key.rename (σ : Renaming) : Key → Key
  | .nan id => .nan (σ.new id)
  | .pair first second => .pair (first.rename σ) (second.rename σ)
  | k => k

theorem Key.rename_injective : Function.Injective (Key.rename σ) := by
  intro k l h
  induction k generalizing l with
  | nan id =>
    cases l with
    | nan id' => rw [σ.injective (Key.nan.inj h)]
    | _ => cases h
  | pair first second ihfirst ihsecond =>
    cases l with
    | pair first' second' =>
      obtain ⟨hfirst, hsecond⟩ := Key.pair.inj h
      rw [ihfirst hfirst, ihsecond hsecond]
    | _ => cases h
  | _ => cases l <;> first | exact h | cases h

namespace Document

theorem numberKey?_rename (x : Binary64) : (numberKey? x).map (Key.rename σ) = numberKey? x := by
  unfold numberKey?
  split
  · rfl
  · split <;> rfl

theorem momentKey_rename (m : Moment) : (momentKey m).rename σ = momentKey m := by
  unfold momentKey
  split <;> rfl

theorem key?_rename : ∀ d : Document, (d.rename σ).key? = d.key?.map (Key.rename σ)
  | pair a b => by
    simp only [rename, key?, key?_rename a, key?_rename b]
    cases a.key? <;> cases b.key? <;> rfl
  | float x => (numberKey?_rename x).symm
  | moment id m => congrArg some (momentKey_rename m).symm
  | null | bool _ | int _ | nan _ | text _ | unpaired _ | octets _ | list _ _ | map _ _ | set _ _
  | knot _ _ | loop _ => rfl

theorem isKey_rename (d : Document) : (d.rename σ).isKey = d.isKey := by
  unfold isKey
  rw [key?_rename, Option.isSome_map]

/-- **The same documents are found by one key.** -/
theorem sameKey_rename (a b : Document) : (a.rename σ).sameKey (b.rename σ) = a.sameKey b := by
  rw [Bool.eq_iff_iff, Table.sameKey_iff, Table.sameKey_iff, key?_rename, key?_rename]
  constructor
  · rintro ⟨k, hk, hl⟩
    obtain ⟨k, ha, rfl⟩ := Option.map_eq_some_iff.mp hk
    obtain ⟨l, hb, h⟩ := Option.map_eq_some_iff.mp hl
    exact ⟨k, ha, Key.rename_injective h ▸ hb⟩
  · rintro ⟨k, ha, hb⟩
    exact ⟨k.rename σ, by rw [ha]; rfl, by rw [hb]; rfl⟩

/-! ## Equality -/

mutual

theorem equal_rename : ∀ a b : Document, (a.rename σ).equal (b.rename σ) = a.equal b
  | pair a b, other => by
    cases other with
    | pair c d =>
      simp only [rename, equal, is_rename, equal_rename a c, equal_rename b d]
    | _ => rfl
  | list id xs, other => by
    -- a list has its items compared with another list, and with nothing else
    cases other with
    | list id' ys => exact equalItems_rename xs ys
    | _ => exact is_rename (list id xs) _
  | map id xs, other => by
    cases other with
    | map id' ys =>
      simp only [rename, equal, entriesWithin_rename xs ys]
      rw [renameEntries_eq, renameEntries_eq, List.length_map, List.length_map]
    | _ => exact is_rename (map id xs) _
  | set id xs, other => by
    cases other with
    | set id' ys =>
      simp only [rename_set, equal, List.length_map, List.all_map, List.any_map]
      simp only [Function.comp_def, sameKey_rename]
    | _ => rfl
  | nan _, _ => rfl
  | knot id body, other => is_rename (knot id body) other
  | null, other | bool _, other | int _, other | float _, other | text _, other
  | unpaired _, other | octets _, other | moment _ _, other | loop _, other => sameKey_rename _ other

theorem equalItems_rename : ∀ xs ys : List Document,
    equalItems (renameItems σ xs) (renameItems σ ys) = equalItems xs ys
  | [], ys => by cases ys <;> rfl
  | x :: xs, ys => by
    cases ys with
    | nil => rfl
    | cons y ys =>
      simp only [renameItems, equalItems, is_rename, equal_rename x y, equalItems_rename xs ys]

theorem entriesWithin_rename : ∀ xs ys : List (Document × Document),
    entriesWithin (renameEntries σ xs) (renameEntries σ ys) = entriesWithin xs ys
  | [], _ => rfl
  | (k, v) :: rest, ys => by
    simp only [renameEntries, entriesWithin, entriesWithin_rename rest ys]
    simp only [renameEntries_eq, List.any_map, Function.comp_def, renameEntry, sameKey_rename,
      is_rename, equal_rename v]

end

/-- **The same documents are equal.** -/
theorem beq_rename (a b : Document) : (a.rename σ == b.rename σ) = (a == b) := equal_rename a b

theorem isSet_rename (d : Document) : (d.rename σ).isSet = d.isSet := by
  cases d <;> simp [isSet, rename, renameItems_eq, renameEntries_eq]

/-! ## What is shown -/

/-- The lists and maps around a place, with other identities. -/
def renameAround (σ : Renaming) (around : Around) : Around :=
  around.map fun place => (σ.new place.1, place.2)

theorem isAround_rename (around : Around) (id : Option Identity) :
    isAround (renameAround σ around) (id.map σ.new) = isAround around id := by
  cases id with
  | none => rfl
  | some id =>
    show (renameAround σ around).any (fun place => place.1 == σ.new id) = around.any _
    rw [renameAround, List.any_map]
    congr 1
    funext place
    rw [Bool.eq_iff_iff, Function.comp_apply, beq_iff_eq, beq_iff_eq, σ.injective.eq_iff]

theorem inside_rename (around : Around) (id : Option Identity) (isMap : Bool) :
    inside (renameAround σ around) (id.map σ.new) isMap
      = renameAround σ (inside around id isMap) := by
  cases id <;> rfl

theorem lookup_renameAround (around : Around) (id : Identity) :
    (renameAround σ around).lookup (σ.new id) = around.lookup id := by
  induction around with
  | nil => rfl
  | cons place rest ih =>
    obtain ⟨id', isMap⟩ := place
    show ((σ.new id', isMap) :: renameAround σ rest).lookup (σ.new id) = _
    rw [List.lookup_cons, List.lookup_cons, ih]
    by_cases h : id = id'
    · rw [h, beq_self_eq_true, beq_self_eq_true]
    · rw [beq_false_of_ne h, beq_false_of_ne (σ.injective.ne h)]

variable [NestingLimits]

mutual

theorem nested_rename (depth : Nat) (around : Around) : ∀ d : Document,
    nested depth (renameAround σ around) (d.rename σ) = nested depth around d
  | pair a b => by
    simp only [rename, nested, nested_rename (depth + 1) around a,
      nested_rename (depth + 1) around b]
  | list id items => by
    simp only [rename, nested, isAround_rename, inside_rename,
      nestedItems_rename (depth + 1) (inside around id false) items]
  | map id entries => by
    simp only [rename, nested, isAround_rename, inside_rename,
      nestedEntries_rename (depth + 1) (inside around id true) entries]
  | set id members => by
    simp only [rename, nested, nestedItems_rename (depth + 1) around members]
    rw [renameItems_eq, List.isEmpty_map]
  | knot id body => nested_rename depth around body
  | loop id => by simp only [rename, nested, lookup_renameAround]
  | null | bool _ | int _ | float _ | nan _ | text _ | unpaired _ | octets _ | moment _ _ => rfl

theorem nestedItems_rename (depth : Nat) (around : Around) : ∀ items : List Document,
    nestedItems depth (renameAround σ around) (renameItems σ items)
      = nestedItems depth around items
  | [] => rfl
  | d :: rest => by
    simp only [renameItems, nestedItems, nested_rename depth around d,
      nestedItems_rename depth around rest]

theorem nestedEntries_rename (depth : Nat) (around : Around) :
    ∀ entries : List (Document × Document),
      nestedEntries depth (renameAround σ around) (renameEntries σ entries)
        = nestedEntries depth around entries
  | [] => rfl
  | (k, d) :: rest => by
    simp only [renameEntries, nestedEntries, nested_rename depth around k,
      nested_rename depth around d, nestedEntries_rename depth around rest]

end

/-- **A message says nothing of identities.** -/
theorem shown_rename (d : Document) : (d.rename σ).shown = d.shown := by
  unfold shown
  congr 1
  cases d with
  | text s => rfl
  | unpaired u => rfl
  | moment id m => rfl
  | _ => exact nested_rename 0 [] _

end Document

/-! ## Tables -/

namespace Table

open Document

/-- A table with other identities in its keys and values. -/
def rename (σ : Renaming) (t : Table Document) : Table Document := ⟨t.entries.map (renameEntry σ)⟩

theorem find?_rename (t : Table Document) (k : Document) :
    (t.rename σ).find? (k.rename σ) = (t.find? k).map (Document.rename σ) := by
  have hsame : (fun entry : Document × Document => (k.rename σ).sameKey entry.1) ∘ renameEntry σ
      = fun entry => k.sameKey entry.1 := by
    funext entry
    exact sameKey_rename k entry.1
  unfold rename find?
  rw [List.find?_map, hsame, Option.map_map, Option.map_map]
  rfl

theorem contains_rename (t : Table Document) (k : Document) :
    (t.rename σ).contains (k.rename σ) = t.contains k := by
  rw [contains_eq_isSome_find?, contains_eq_isSome_find?, find?_rename, Option.isSome_map]

theorem insert_rename (t : Table Document) (k v : Document) :
    (t.rename σ).insert (k.rename σ) (v.rename σ) = (t.insert k v).rename σ := by
  obtain ⟨entries⟩ := t
  unfold insert rename
  congr 1
  induction entries with
  | nil => rfl
  | cons entry rest ih =>
    rw [List.map_cons, insertEntry, insertEntry, renameEntry, sameKey_rename, ih]
    split <;> rfl

theorem insertAll_rename (t : Table Document) (entries : List (Document × Document)) :
    (t.rename σ).insertAll (entries.map (renameEntry σ)) = (t.insertAll entries).rename σ := by
  induction entries generalizing t with
  | nil => rfl
  | cons entry rest ih =>
    show ((t.rename σ).insert (entry.1.rename σ) (entry.2.rename σ)).insertAll _ = _
    rw [insert_rename, ih]
    rfl

theorem ofList_rename (entries : List (Document × Document)) :
    ofList (entries.map (renameEntry σ)) = (ofList entries).rename σ :=
  insertAll_rename empty entries

end Table

/-! ## What is reached -/

namespace Document

theorem table?_rename (d : Document) : (d.rename σ).table? = d.table?.map (Table.rename σ) := by
  unfold table?
  rw [unrolled_rename]
  cases d.unrolled with
  | map id entries => rw [rename_map]; rfl
  | _ => rfl

theorem memberOr_rename (d : Document) (name : String) (absent : Document) :
    (d.rename σ).memberOr name (absent.rename σ) = (d.memberOr name absent).map (rename σ) := by
  unfold memberOr member?
  rw [table?_rename]
  cases d.table? with
  | none => rfl
  | some table =>
    show Except.ok (((table.rename σ).find? ((text name).rename σ)).getD _) = Except.ok (_ : Document)
    rw [Table.find?_rename]
    cases table.find? (text name) <;> rfl

theorem memberOrNull_rename (d : Document) (name : String) :
    (d.rename σ).memberOrNull name = (d.memberOrNull name).map (rename σ) :=
  memberOr_rename d name .null

theorem member_rename (d : Document) (name : String) :
    (d.rename σ).member name = (d.member name).map (rename σ) := by
  unfold member
  rw [table?_rename]
  cases d.table? with
  | none => rfl
  | some table =>
    have hfind : (table.rename σ).find? (text name) = (table.find? (text name)).map (rename σ) :=
      Table.find?_rename table (text name)
    simp only [Option.map_some, hfind]
    cases table.find? (text name) <;> rfl

theorem entries_rename (d : Document) :
    (d.rename σ).entries = d.entries.map (List.map (renameEntry σ)) := by
  unfold entries
  rw [unrolled_rename]
  cases d.unrolled with
  | map id entries => rw [rename_map]; rfl
  | _ => rfl

theorem elements_rename (d : Document) :
    (d.rename σ).elements = d.elements.map (List.map (rename σ)) := by
  unfold elements
  rw [unrolled_rename]
  cases d.unrolled with
  | list id items => rw [rename_list]; rfl
  | text s => simp [Except.map, rename]
  | unpaired u =>
    have hpoint : (rename σ) ∘ ofPoint = ofPoint := by
      funext point
      cases point <;> rfl
    simp [Except.map, rename, hpoint]
  | octets bytes => simp [Except.map, rename]
  | map id entries =>
    rw [rename_map]
    simp [Except.map, renameEntry]
  | set id members => rw [rename_set]; rfl
  | _ => rfl

theorem backwards_rename (d : Document) :
    (d.rename σ).backwards = d.backwards.map (List.map (rename σ)) := by
  have helements : (d.rename σ).elements.map List.reverse
      = (d.elements.map List.reverse).map (List.map (rename σ)) := by
    rw [elements_rename]
    cases d.elements with
    | error e => rfl
    | ok items => exact congrArg Except.ok List.map_reverse.symm
  cases d with
  | set id members => rfl
  | _ => exact helements

theorem mentions_rename (d : Document) (name : String) :
    (d.rename σ).mentions name = d.mentions name := by
  have hbeq : ∀ e : Document, (e.rename σ == text name) = (e == text name) :=
    fun e => beq_rename e (text name)
  unfold mentions
  rw [unrolled_rename]
  cases d.unrolled with
  | map id entries =>
    rw [rename_map]
    exact congrArg Except.ok (Table.contains_rename ⟨entries⟩ (text name))
  | list id items =>
    rw [rename_list]
    simp only [List.any_map, Function.comp_def, hbeq]
  | pair a b => simp only [rename, hbeq]
  | set id members =>
    rw [rename_set]
    simp only [List.any_map, Function.comp_def, hbeq]
  | _ => rfl

theorem lookUp_rename (t : Table Document) (k : Document) :
    lookUp (t.rename σ) (k.rename σ) = (lookUp t k).map (Option.map (rename σ)) := by
  unfold lookUp
  rw [isKey_rename, Table.find?_rename]
  split <;> rfl

end Document

end SlotSafe
