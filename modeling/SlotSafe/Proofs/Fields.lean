import SlotSafe.Proofs.Verdict

/-!
# Fields

What the verdict sees of a variable is its **field**: its name and the label of its type. A compiler
writes both as texts, and of two layouts that hold texts (`Layout.HasTexts`) two variables are a
free pair exactly when they have the same field (`sameField_eq_field`). So a question about what an
alignment costs is one about two lists of fields.
-/

namespace SlotSafe

/-- The name of a variable. -/
def Item.name (item : Item) : String := item.label.text?.getD ""

namespace Layout

/-- The names of the variables, in the order of their slots. -/
def names (l : Layout) : List String := l.items.map Item.name

/-- The field of a variable: its name and the label of its type. -/
def field (l : Layout) (item : Item) : String × String :=
  (item.name, (l.labelOf item).text?.getD "")

/-- The fields of the variables, in the order of their slots. -/
def fields (l : Layout) : List (String × String) := l.items.map l.field

/-- Whether all names and all labels of types are texts. -/
def HasTexts (l : Layout) : Prop :=
  ∀ item ∈ l.items, item.label.isText = true ∧ (l.labelOf item).isText = true

instance (l : Layout) : Decidable l.HasTexts :=
  inferInstanceAs (Decidable (∀ item ∈ l.items, _))

end Layout

namespace Upgrade

open SlotSafe.Alignment

theorem eq_text_of_isText {d : Document} (h : d.isText = true) : ∃ s, d = .text s := by
  cases d with
  | text s => exact ⟨s, rfl⟩
  | _ => exact absurd h (by simp [Document.isText, Document.text?])

/-- Texts are equal when they say the same. -/
theorem beq_eq_of_isText {d d' : Document} (h : d.isText = true) (h' : d'.isText = true) :
    (d == d') = (d.text?.getD "" == d'.text?.getD "") := by
  obtain ⟨s, rfl⟩ := eq_text_of_isText h
  obtain ⟨t, rfl⟩ := eq_text_of_isText h'
  exact Document.text_beq_text s t

theorem eq_of_beq_of_isText {d d' : Document} (h : d.isText = true) (h' : d'.isText = true)
    (hbeq : (d == d') = true) : d = d' := by
  obtain ⟨s, rfl⟩ := eq_text_of_isText h
  obtain ⟨t, rfl⟩ := eq_text_of_isText h'
  rw [Document.text_beq_text, beq_iff_eq] at hbeq
  exact congrArg Document.text hbeq

variable {original updated : Layout}

/-- **Two variables are a free pair exactly when they have the same field.** -/
theorem sameField_eq_field (horiginal : original.HasTexts) (hupdated : updated.HasTexts) :
    ∀ o ∈ original.items, ∀ u ∈ updated.items,
      sameField original updated o u = (original.field o == updated.field u) := by
  intro o ho u hu
  obtain ⟨hname, htype⟩ := horiginal o ho
  obtain ⟨hname', htype'⟩ := hupdated u hu
  rw [sameField, sameType, beq_eq_of_isText hname hname', beq_eq_of_isText htype htype',
    Bool.eq_iff_iff]
  simp [Layout.field, Item.name]

/-- An upgrade is unsafe as soon as aligning the fields costs less than it does in place. -/
theorem check_ne_ok_of_cost_lt (horiginal : original.HasTexts) (hupdated : updated.HasTexts)
    (h : ∃ e : Edit original.fields updated.fields, e.cost (fun a b => a == b)
      < (Edit.inPlace original.fields updated.fields).cost (fun a b => a == b)) :
    check original updated ≠ .ok () := by
  obtain ⟨e, he⟩ := h
  have hfree := sameField_eq_field horiginal hupdated
  obtain ⟨e', he'⟩ := e.exists_cost_eq_of_map rfl rfl hfree
  have hplace : (Edit.inPlace original.fields updated.fields).cost (fun a b => a == b)
      = (Edit.inPlace original.items updated.items).cost (sameField original updated) :=
    Edit.cost_inPlace_map hfree
  rw [hplace] at he
  intro hcheck
  obtain ⟨-, -, hcost⟩ := (check_eq_ok_iff_inPlace original updated).mp hcheck
  rw [le_cost_best_iff, isFree_classify] at hcost
  exact absurd (hcost e') (Nat.not_le_of_lt (he'.trans_lt he))

end Upgrade

end SlotSafe
