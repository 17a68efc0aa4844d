import SlotSafe.Json.Reader
import SlotSafe.Proofs.Renaming

/-!
# Two readings of a JSON text

The lists and maps of a document are numbered by their places in the text, and the number of the
reading stands beside theirs. So **two readings of one text differ by a renaming of identities**
(`read_rename`).
-/

namespace SlotSafe

/-- **A renaming that leads from one reading to another**: it exchanges the number of the reading,
and what is shared by all readings stays. -/
structure Renaming.Leads (σ : Renaming) (first second : Nat) : Prop where
  reading : ∀ n, σ.new ⟨first, n⟩ = ⟨second, n⟩
  shared : σ.new ⟨0, 0⟩ = ⟨0, 0⟩

namespace Json

open Document

variable {σ : Renaming} {first second : Nat}

/-- What is read, with other identities. -/
def renameRead (σ : Renaming) (found : Document × List Char) : Document × List Char :=
  (found.1.rename σ, found.2)

theorem readNumber_rename {s rest : List Char} {d : Document}
    (h : readNumber s = some (.ok d, rest)) : d.rename σ = d := by
  unfold readNumber at h
  simp only at h
  split at h
  · cases h
  · split at h
    · split at h
      · cases h
      · cases h
        rfl
    · cases h
      rfl

/-- An item, or the items, read with what is left, with other identities. -/
def renameReadItems (σ : Renaming) (found : List Document × List Char) :
    List Document × List Char :=
  (found.1.map (rename σ), found.2)

/-- The table that is read, with what is left, with other identities. -/
def renameReadTable (σ : Renaming) (found : Table Document × List Char) :
    Table Document × List Char :=
  (found.1.rename σ, found.2)

variable [NestingLimits]

mutual

theorem readValue_rename (hσ : σ.Leads first second) : ∀ (fuel depth : Nat) (s : List Char),
    readValue second fuel depth s = (readValue first fuel depth s).map (renameRead σ)
  | 0, _, _ => rfl
  | fuel + 1, depth, s => by
    unfold readValue
    split
    · exact bind_rename_of_same rfl fun _ => rfl
    · split
      · rfl
      · rw [← hσ.reading]
        split
        · rfl
        · refine bind_rename (readItems_rename hσ fuel (depth + 1) _) fun found => ?_
          exact congrArg (fun d => Except.ok (d, found.2)) (rename_list (some _) found.1).symm
    · split
      · rfl
      · rw [← hσ.reading]
        split
        · rfl
        · refine bind_rename (readEntries_rename hσ fuel (depth + 1) .empty _) fun found => ?_
          exact congrArg (fun d => Except.ok (d, found.2)) (rename_map (some _) found.1.entries).symm
    · rfl
    · rfl
    · rfl
    · exact congrArg (fun id => Except.ok (Document.nan id, _)) hσ.shared.symm
    · rfl
    · rfl
    · cases hnumber : readNumber s with
      | none => rfl
      | some found =>
        obtain ⟨_ | d, rest⟩ := found
        · rfl
        · exact congrArg (fun d => Except.ok (d, rest)) (readNumber_rename hnumber).symm

theorem readItems_rename (hσ : σ.Leads first second) : ∀ (fuel depth : Nat) (s : List Char),
    readItems second fuel depth s = (readItems first fuel depth s).map (renameReadItems σ)
  | 0, _, _ => rfl
  | fuel + 1, depth, s => by
    unfold readItems
    refine bind_rename (readValue_rename hσ fuel depth s) fun found => ?_
    obtain ⟨item, rest⟩ := found
    dsimp only [renameRead]
    split
    · rfl
    · exact bind_rename (readItems_rename hσ fuel depth _) fun others => rfl
    · rfl

theorem readEntries_rename (hσ : σ.Leads first second) :
    ∀ (fuel depth : Nat) (table : Table Document) (s : List Char),
      readEntries second fuel depth (table.rename σ) s
        = (readEntries first fuel depth table s).map (renameReadTable σ)
  | 0, _, _, _ => rfl
  | fuel + 1, depth, table, s => by
    unfold readEntries
    split
    · refine bind_rename_of_same rfl fun found => ?_
      obtain ⟨key, rest⟩ := found
      dsimp only
      split
      · refine bind_rename (r := renameRead σ) ?_ fun found => ?_
        · split
          · rfl
          · exact readValue_rename hσ fuel depth _
        obtain ⟨value, rest⟩ := found
        have htable : (table.rename σ).insert (text key) (value.rename σ)
            = (table.insert (text key) value).rename σ :=
          Table.insert_rename table (text _) value
        dsimp only [renameRead]
        rw [htable]
        split
        · rfl
        · exact readEntries_rename hσ fuel depth _ _
        · rfl
      · rfl
    · rfl

end

/-- **Two readings of one text find the same document**, up to a renaming. -/
theorem read_rename (hσ : σ.Leads first second) (s : List Char) :
    read second s = (read first s).map (rename σ) := by
  have hall : readAll second s = (readAll first s).map (rename σ) := by
    unfold readAll
    split
    · rfl
    · refine bind_rename (readValue_rename hσ _ _ _) fun found => ?_
      obtain ⟨value, rest⟩ := found
      dsimp only [renameRead]
      split <;> rfl
  unfold read
  rw [hall]
  cases readAll first s <;> rfl

end Json

/-- **The renaming that exchanges two readings.** -/
def Renaming.exchange (first second : Nat) : Renaming where
  new id := ⟨if id.reading = first then second else if id.reading = second then first
    else id.reading, id.number⟩
  injective := by
    rintro ⟨r, n⟩ ⟨r', n'⟩ h
    obtain ⟨hreading, rfl⟩ := Identity.mk.inj h
    congr 1
    grind

theorem Renaming.exchange_leads {first second : Nat} (hfirst : first ≠ 0) (hsecond : second ≠ 0) :
    (exchange first second).Leads first second where
  reading n := by simp [exchange]
  shared := by simp [exchange, Ne.symm hfirst, Ne.symm hsecond]

end SlotSafe
