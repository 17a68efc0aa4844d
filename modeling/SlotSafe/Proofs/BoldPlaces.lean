import SlotSafe.Proofs.Declarations
import SlotSafe.Report

/-!
# The two reports of unsafe changes

Unsafe changes are told twice: as the message of the fault that a check ends with, and by a report for
the terminal, which may show their places in bold. The first puts an empty line between the heading
and the paragraphs only if there is a paragraph, the second always does.

**Of changes in words both say the same** (`errorText_eq_summary`), unless there are none. The bold
report differs from the plain one by the signs around each place and by nothing else; so what it says
is found again by leaving these signs out, where no word has the escape character with which they
begin.
-/

namespace SlotSafe.Report

/-! ## Changes in words -/

/-- **An unsafe change in words**: the place, what happens, and the name of the variable. -/
structure Wording where
  place : String
  action : String
  name : String

namespace Wording

/-- The change that is worded so. -/
def change (w : Wording) : UpgradeError := ⟨.text w.place, w.action, .text w.name⟩

/-- What is said of the change after its place. -/
def said (w : Wording) : String := ": " ++ w.action ++ " of variable " ++ w.name

/-- The paragraph of the change. -/
def plain (w : Wording) : String := w.place ++ w.said

/-- The paragraph of the change, with the place in bold. -/
def bold (w : Wording) : String := boldOn ++ w.place ++ boldOff ++ w.said

/-- Different words are different changes. -/
theorem change_injective : Function.Injective change := by
  rintro ⟨place, action, name⟩ ⟨place', action', name'⟩ h
  cases h
  rfl

/-- Whether the escape character occurs in none of the words. -/
def HasNoEscape (w : Wording) : Prop :=
  ∀ s ∈ [w.place, w.action, w.name], '\x1b' ∉ s.toList

end Wording

/-- Changes whose fields are texts are worded. -/
theorem exists_wordings {errors : List UpgradeError}
    (h : ∀ e ∈ errors, e.location.isText = true ∧ e.label.isText = true) :
    ∃ ws : List Wording, ws.map Wording.change = errors := by
  induction errors with
  | nil => exact ⟨[], rfl⟩
  | cons e rest ih =>
    obtain ⟨⟨hlocation, hlabel⟩, hrest⟩ := List.forall_mem_cons.mp h
    obtain ⟨ws, rfl⟩ := ih hrest
    obtain ⟨location, action, label⟩ := e
    obtain ⟨place, rfl⟩ := Document.exists_text_of_isText hlocation
    obtain ⟨name, rfl⟩ := Document.exists_text_of_isText hlabel
    exact ⟨⟨place, action, name⟩ :: ws, rfl⟩

/-- The heading and paragraphs, with empty lines between them. -/
def reportOf (paragraphs : List String) : String :=
  UpgradeError.heading ++ "\n\n" ++ "\n\n".intercalate paragraphs

/-! ## What both say -/

theorem summaryParagraphs_change [NestingLimits] (ws : List Wording) :
    UpgradeError.paragraphs (ws.map Wording.change) = .ok (ws.map Wording.plain) := by
  induction ws with
  | nil => rfl
  | cons w rest ih =>
    rw [List.map_cons, UpgradeError.paragraphs, ih]
    rfl

theorem paragraphs_change [NestingLimits] (inBold : Bool) (ws : List Wording) :
    paragraphs inBold (ws.map Wording.change)
      = .ok (ws.map fun w => if inBold then w.bold else w.plain) := by
  induction ws with
  | nil => rfl
  | cons w rest ih =>
    rw [List.map_cons, paragraphs, ih]
    cases inBold <;> rfl

theorem errorText_change [NestingLimits] (inBold : Bool) (ws : List Wording) :
    errorText inBold (ws.map Wording.change)
      = .ok (reportOf (ws.map fun w => if inBold then w.bold else w.plain)) := by
  rw [errorText, paragraphs_change]
  rfl

/-- A paragraph says something, and so do paragraphs with empty lines between them. -/
theorem intercalate_plain_ne_empty {ws : List Wording} (h : ws ≠ []) :
    "\n\n".intercalate (ws.map Wording.plain) ≠ "" := by
  obtain ⟨w, rest, rfl⟩ := List.exists_cons_of_ne_nil h
  cases rest <;> simp [Wording.plain, Wording.said]

/-- The message has an empty line behind the heading whenever there is a change. -/
theorem summary_change [NestingLimits] {ws : List Wording} (h : ws ≠ []) :
    UpgradeError.summary (ws.map Wording.change) = .ok (reportOf (ws.map Wording.plain)) := by
  have hsaid := intercalate_plain_ne_empty h
  rw [UpgradeError.summary, UpgradeError.details, summaryParagraphs_change]
  show Except.ok (if ("\n\n".intercalate (ws.map Wording.plain)).isEmpty then _ else _) = _
  rw [if_neg (by simpa using hsaid)]
  rfl

/-! ## Leaving the signs out -/

/-- Leaves out the signs that turn bold letters on and off. -/
def withoutSigns : List Char → List Char
  | '\x1b' :: '[' :: '1' :: 'm' :: rest => withoutSigns rest
  | '\x1b' :: '[' :: '0' :: 'm' :: rest => withoutSigns rest
  | c :: rest => c :: withoutSigns rest
  | [] => []

/-- A text without the signs that turn bold letters on and off. -/
def withoutBold (s : String) : String := String.ofList (withoutSigns s.toList)

theorem withoutSigns_append {s : List Char} (h : '\x1b' ∉ s) (rest : List Char) :
    withoutSigns (s ++ rest) = s ++ withoutSigns rest := by
  induction s with
  | nil => rfl
  | cons c s ih =>
    rw [List.mem_cons, not_or] at h
    obtain ⟨hc, hs⟩ := h
    rw [List.cons_append, withoutSigns, ih hs, List.cons_append]
    · rintro _ rfl
      exact absurd rfl hc
    · rintro _ rfl
      exact absurd rfl hc

theorem withoutBold_append {s : String} (h : '\x1b' ∉ s.toList) (rest : String) :
    withoutBold (s ++ rest) = s ++ withoutBold rest := by
  unfold withoutBold
  rw [String.toList_append, withoutSigns_append h, String.ofList_append, String.ofList_toList]

theorem withoutBold_boldOn (rest : String) : withoutBold (boldOn ++ rest) = withoutBold rest := by
  unfold withoutBold
  rw [String.toList_append]
  rfl

theorem withoutBold_boldOff (rest : String) : withoutBold (boldOff ++ rest) = withoutBold rest := by
  unfold withoutBold
  rw [String.toList_append]
  rfl

/-- **Without its signs a bold paragraph is the plain one**, whatever follows. -/
theorem Wording.withoutBold_bold {w : Wording} (h : w.HasNoEscape) (rest : String) :
    withoutBold (w.bold ++ rest) = w.plain ++ withoutBold rest := by
  obtain ⟨hplace, haction, hname, -⟩ : '\x1b' ∉ w.place.toList ∧ '\x1b' ∉ w.action.toList
      ∧ '\x1b' ∉ w.name.toList ∧ True := by
    simpa [HasNoEscape] using h
  have hsaid : '\x1b' ∉ w.said.toList := by
    simp [said, haction, hname]
  have hbold : w.bold ++ rest = boldOn ++ (w.place ++ (boldOff ++ (w.said ++ rest))) := by
    simp only [bold, String.append_assoc]
  rw [hbold, withoutBold_boldOn, withoutBold_append hplace, withoutBold_boldOff,
    withoutBold_append hsaid, plain, String.append_assoc]

theorem withoutBold_intercalate {ws : List Wording} (h : ∀ w ∈ ws, w.HasNoEscape) :
    withoutBold ("\n\n".intercalate (ws.map Wording.bold))
      = "\n\n".intercalate (ws.map Wording.plain) := by
  induction ws with
  | nil => rfl
  | cons w rest ih =>
    obtain ⟨hw, hrest⟩ := List.forall_mem_cons.mp h
    cases rest with
    | nil =>
      have hlast := Wording.withoutBold_bold hw ""
      rw [show withoutBold "" = "" from rfl] at hlast
      simpa using hlast
    | cons other rest =>
      rw [List.map_cons, List.map_cons, String.intercalate_cons_cons, String.append_assoc,
        Wording.withoutBold_bold hw, withoutBold_append (by decide), ← List.map_cons, ih hrest,
        List.map_cons, List.map_cons, List.map_cons, String.intercalate_cons_cons,
        String.append_assoc]

/-- **The report of unsafe changes says what the message of the fault says**, and in bold the same with
signs around each place. This holds of all changes whose fields are texts, if there is one at least.
Where no field has an escape character, the bold report without its signs is the plain one. -/
theorem errorText_eq_summary [NestingLimits] {errors : List UpgradeError} (hsome : errors ≠ [])
    (htexts : ∀ e ∈ errors, e.location.isText = true ∧ e.label.isText = true) :
    ∃ ws : List Wording, ws.map Wording.change = errors
      ∧ UpgradeError.summary errors = .ok (reportOf (ws.map Wording.plain))
      ∧ errorText false errors = .ok (reportOf (ws.map Wording.plain))
      ∧ errorText true errors = .ok (reportOf (ws.map Wording.bold))
      ∧ ((∀ w ∈ ws, w.HasNoEscape) →
        withoutBold (reportOf (ws.map Wording.bold)) = reportOf (ws.map Wording.plain)) := by
  obtain ⟨ws, rfl⟩ := exists_wordings htexts
  have hws : ws ≠ [] := fun hnil => hsome (by rw [hnil]; rfl)
  refine ⟨ws, rfl, summary_change hws, errorText_change false ws, errorText_change true ws,
    fun hplain => ?_⟩
  rw [reportOf, withoutBold_append (by decide), withoutBold_intercalate hplain]
  rfl

/-- Two changes with separators in their words, the second without a place. -/
def separatorWordings : List Wording := [⟨"A.sol\n\n:1", "delete", "owner"⟩, ⟨"", "replace", ": fee"⟩]

theorem errorText_separatorWordings :
    errorText false (separatorWordings.map Wording.change)
        = .ok ("New storage layout is incompatible\n\n"
          ++ "A.sol\n\n:1: delete of variable owner\n\n: replace of variable : fee")
      ∧ ∃ text, errorText true (separatorWordings.map Wording.change) = .ok text
        ∧ errorText false (separatorWordings.map Wording.change) = .ok (withoutBold text) := by
  obtain ⟨ws, hws, -, hplain, hbold, hsigns⟩ :=
    @errorText_eq_summary _ (separatorWordings.map Wording.change) (by decide) (by decide)
  obtain rfl := List.map_injective_iff.mpr Wording.change_injective hws
  have hwords : ∀ w ∈ separatorWordings, w.HasNoEscape := by
    simp [separatorWordings, Wording.HasNoEscape]
  exact ⟨hplain, _, hbold, hsigns hwords ▸ hplain⟩

end SlotSafe.Report
