import SlotSafe.Proofs.Nesting

/-!
# Documents as they are read

What is read from JSON is more than a document of its kinds: everything in it that is made of parts
has an identity, the keys of each of its maps differ, and what is called a number is one
(`Json.isRead_of_read`).

So **what was read is the same as itself** (`IsRead.same_self`), and this is found out at once, however
deep its parts lie: what has an identity is not looked into (`partsCompare_self`).
-/

namespace SlotSafe

/-! ## Numbers -/

namespace Binary64

/-- No bits up to those of infinity stand for anything but a number. -/
theorem isNaN_ofMagnitude (negative : Bool) {magnitude : Nat} (h : magnitude ≤ infinityBits) :
    (ofMagnitude negative magnitude).isNaN = false := by
  have hsize : fractionSize = 4503599627370496 := rfl
  have hinfinity : infinityBits = 2047 * 4503599627370496 := rfl
  have hsign : Nat.pow 2 63 = 9223372036854775808 := rfl
  have hmagnitude : (ofMagnitude negative magnitude).bits.toNat % Nat.pow 2 63 = magnitude := by
    unfold ofMagnitude
    rw [UInt64.toNat_ofNat', hsign]
    cases negative <;> simp only [Bool.false_eq_true, if_true, if_false] <;> omega
  unfold isNaN meaning
  simp only [hmagnitude, hsize]
  split
  · rw [if_pos (by omega)]
    rfl
  · split <;> rfl

theorem isNaN_infinity (negative : Bool) : (infinity negative).isNaN = false :=
  isNaN_ofMagnitude negative (Nat.le_refl _)

theorem isNaN_nearest (negative : Bool) (num den : Nat) : (nearest negative num den).isNaN = false := by
  unfold nearest
  split
  · exact isNaN_ofMagnitude negative (Nat.zero_le _)
  · dsimp only
    split
    · exact isNaN_infinity negative
    · next h => exact isNaN_ofMagnitude negative (Nat.le_of_not_le h)

/-- **Whatever digits write is a number.** -/
theorem isNaN_ofDecimal (negative : Bool) (digits : Nat) (exponent : Int) :
    (ofDecimal negative digits exponent).isNaN = false := by
  unfold ofDecimal
  dsimp only
  split
  · exact isNaN_ofMagnitude negative (Nat.zero_le _)
  · split
    · exact isNaN_infinity negative
    · split
      · exact isNaN_nearest negative _ _
      · exact isNaN_nearest negative _ _

end Binary64

namespace Document

/-- **A document as it is read from JSON**: its lists and maps have identities, the keys of a map are
distinct texts, and a binary64 number is a number. The value that is none stands for itself. -/
inductive IsRead : Document → Prop
  | null : IsRead null
  | bool (b : Bool) : IsRead (bool b)
  | int (n : Int) : IsRead (int n)
  | float {x : Binary64} (number : x.isNaN = false) : IsRead (float x)
  | nan (id : Identity) : IsRead (nan id)
  | text (s : String) : IsRead (text s)
  | unpaired (u : Text.Unpaired) : IsRead (unpaired u)
  | list {id : Identity} {items : List Document} (parts : ∀ item ∈ items, IsRead item) :
    IsRead (list (some id) items)
  | map {id : Identity} {entries : List (Document × Document)}
    (keys : ∀ entry ∈ entries, entry.1.isText = true)
    (distinct : Table.DistinctKeys (entries.map (·.1))) (parts : ∀ entry ∈ entries, IsRead entry.2) :
    IsRead (map (some id) entries)

variable {d v : Document} {name : String}

theorem IsRead.isJson (h : d.IsRead) : d.IsJson := by
  induction h with
  | null => exact .null
  | bool b => exact .bool b
  | int n => exact .int n
  | float number => exact .float _
  | nan id => exact .nan id
  | text s => exact .text s
  | unpaired u => exact .unpaired u
  | list parts ih => exact .list ih
  | map keys distinct parts ih => exact .map keys ih

theorem IsRead.unrolled (h : d.IsRead) : d.unrolled = d := h.isJson.unrolled

theorem IsRead.of_at? (h : d.IsRead) (hv : d.at? name = some v) : v.IsRead := by
  obtain ⟨table, htable, hfind⟩ := Option.bind_eq_some_iff.mp hv
  unfold table? at htable
  rw [h.unrolled] at htable
  cases h with
  | map keys distinct parts =>
    cases htable
    obtain ⟨entry, hentry, -, rfl⟩ := Table.exists_of_find? hfind
    exact parts entry hentry
  | _ => cases htable

/-! ## Comparing a document with itself -/

theorem is_self (h : d.identity?.isSome = true) : d.is d = true := by
  unfold is
  rw [h, beq_self_eq_true]
  rfl

theorem numberKey?_isSome {x : Binary64} (h : x.isNaN = false) : (numberKey? x).isSome = true := by
  unfold numberKey?
  split
  · rfl
  · rw [h]
    rfl

/-- **What was read has an identity, or is found by itself.** -/
theorem IsRead.is_self_or_sameKey (h : d.IsRead) :
    d.is d = true ∨ d.sameKey d = true ∧ d.equal d = d.sameKey d
      ∧ ∀ depth, 0 < depth → comparesWithin depth d d = true := by
  have hcompares {e : Document} (he : ∀ depth, comparesWithin (depth + 1) e e = true) (depth : Nat)
      (hdepth : 0 < depth) : comparesWithin depth e e = true := by
    obtain ⟨below, rfl⟩ := Nat.exists_eq_succ_of_ne_zero (Nat.ne_of_gt hdepth)
    exact he below
  have hkey {e : Document} (he : e.isKey = true) : e.sameKey e = true := by
    obtain ⟨key, hkey⟩ := Option.isSome_iff_exists.mp he
    exact Table.sameKey_iff.mpr ⟨key, hkey, hkey⟩
  cases h with
  | float number => exact .inr ⟨hkey (numberKey?_isSome number), rfl, hcompares fun _ => rfl⟩
  | nan id => exact .inl (is_self rfl)
  | list parts => exact .inl (is_self rfl)
  | map keys distinct parts => exact .inl (is_self rfl)
  | _ => exact .inr ⟨hkey rfl, rfl, hcompares fun _ => rfl⟩

/-- **What was read is the same as itself.** -/
theorem IsRead.same_self (h : d.IsRead) : d.same d = true := by
  unfold same
  obtain his | ⟨hkey, hequal, -⟩ := h.is_self_or_sameKey
  · rw [his]
    rfl
  · rw [show (d == d) = true from hequal.trans hkey, Bool.or_true]

/-- **What was read is compared with itself at once.** -/
theorem partsCompare_self {pairs : List (Document × Document)} {depth : Nat} (hdepth : 0 < depth)
    (h : ∀ pair ∈ pairs, pair.1 = pair.2 ∧ pair.1.IsRead) :
    partsCompare (comparesWithin depth) pairs = true := by
  induction pairs with
  | nil => rfl
  | cons pair rest ih =>
    obtain ⟨x, y⟩ := pair
    obtain ⟨⟨hsame, hread⟩, hrest⟩ := List.forall_mem_cons.mp h
    obtain rfl : x = y := hsame
    rw [partsCompare, ih hrest]
    obtain his | ⟨-, -, hcompares⟩ := hread.is_self_or_sameKey
    · rw [if_pos his]
    · rw [hcompares depth hdepth]
      simp

end Document

namespace Json

open Document

/-! ## Reading -/

/-- A table as it is read: distinct texts as keys, and values that were read. -/
structure IsReadTable (t : Table Document) : Prop where
  keys : ∀ entry ∈ t.entries, entry.1.isText = true
  distinct : Table.DistinctKeys t.keys
  parts : ∀ entry ∈ t.entries, entry.2.IsRead

theorem isReadTable_empty : IsReadTable .empty :=
  ⟨List.forall_mem_nil _, List.Pairwise.nil, List.forall_mem_nil _⟩

theorem IsReadTable.insert {t : Table Document} (h : IsReadTable t) (name : String) {d : Document}
    (hd : d.IsRead) : IsReadTable (t.insert (.text name) d) := by
  have hentry := texts_insert (fun entry hentry => ⟨h.keys entry hentry, h.parts entry hentry⟩) name hd
  exact ⟨fun entry hmem => (hentry entry hmem).1, Table.distinctKeys_insert h.distinct _ _,
    fun entry hmem => (hentry entry hmem).2⟩

theorem isRead_of_readNumber {s rest : List Char} {d : Document}
    (h : readNumber s = some (.ok d, rest)) : d.IsRead := by
  unfold readNumber at h
  simp only at h
  split at h
  · cases h
  · split at h
    · split at h
      · cases h
      · cases h
        exact .int _
    · cases h
      exact .float (Binary64.isNaN_ofDecimal _ _ _)

variable [NestingLimits]

mutual

theorem isRead_of_readValue {reading : Nat} : ∀ {fuel depth : Nat} {s rest : List Char}
    {d : Document}, readValue reading fuel depth s = .ok (d, rest) → d.IsRead
  | 0, _, _, _, _, h => by cases h
  | fuel + 1, depth, s, rest, d, h => by
    unfold readValue at h
    split at h
    · obtain ⟨text, -, h⟩ := bind_eq_ok_iff.mp h
      cases h
      exact .text _
    · split at h
      · cases h
      · split at h
        · cases h
          exact .list (List.forall_mem_nil _)
        · obtain ⟨⟨items, rest⟩, hitems, h⟩ := bind_eq_ok_iff.mp h
          cases h
          exact .list (isRead_of_readItems hitems)
    · split at h
      · cases h
      · split at h
        · cases h
          exact .map (List.forall_mem_nil _) List.Pairwise.nil (List.forall_mem_nil _)
        · obtain ⟨⟨table, rest⟩, htable, h⟩ := bind_eq_ok_iff.mp h
          cases h
          have hread := isReadTable_of_readEntries isReadTable_empty htable
          exact .map hread.keys hread.distinct hread.parts
    · cases h; exact .null
    · cases h; exact .bool _
    · cases h; exact .bool _
    · cases h; exact .nan _
    · cases h; exact .float (Binary64.isNaN_infinity _)
    · cases h; exact .float (Binary64.isNaN_infinity _)
    · split at h
      · next hnumber =>
        cases h
        exact isRead_of_readNumber hnumber
      · cases h
      · cases h

theorem isRead_of_readItems {reading : Nat} : ∀ {fuel depth : Nat} {s rest : List Char}
    {items : List Document}, readItems reading fuel depth s = .ok (items, rest) →
      ∀ item ∈ items, item.IsRead
  | 0, _, _, _, _, h => by cases h
  | fuel + 1, depth, s, rest, items, h => by
    unfold readItems at h
    obtain ⟨⟨item, left⟩, hitem, h⟩ := bind_eq_ok_iff.mp h
    have hread := isRead_of_readValue hitem
    dsimp only at h
    split at h
    · cases h
      exact List.forall_mem_singleton.mpr hread
    · obtain ⟨⟨others, rest⟩, hothers, h⟩ := bind_eq_ok_iff.mp h
      cases h
      exact List.forall_mem_cons.mpr ⟨hread, isRead_of_readItems hothers⟩
    · cases h

theorem isReadTable_of_readEntries {reading : Nat} : ∀ {fuel depth : Nat}
    {table found : Table Document} {s rest : List Char}, IsReadTable table →
      readEntries reading fuel depth table s = .ok (found, rest) → IsReadTable found
  | 0, _, _, _, _, _, _, h => by cases h
  | fuel + 1, depth, table, found, s, rest, htable, h => by
    unfold readEntries at h
    split at h
    · obtain ⟨⟨key, left⟩, -, h⟩ := bind_eq_ok_iff.mp h
      dsimp only at h
      split at h
      · obtain ⟨⟨value, after⟩, hvalue, h⟩ := bind_eq_ok_iff.mp h
        have hread : value.IsRead := by
          split at hvalue
          · cases hvalue
            exact .unpaired _
          · exact isRead_of_readValue hvalue
        have hinsert := htable.insert key hread
        dsimp only at h
        split at h
        · cases h
          exact hinsert
        · exact isReadTable_of_readEntries hinsert h
        · cases h
      · cases h
    · cases h

end

/-- **What JSON holds is read so.** -/
theorem isRead_of_read {reading : Nat} {s : List Char} {d : Document} (h : read reading s = .ok d) :
    d.IsRead := by
  obtain ⟨fuel, rest, hvalue⟩ := exists_readValue h
  exact isRead_of_readValue hvalue

end Json

end SlotSafe
