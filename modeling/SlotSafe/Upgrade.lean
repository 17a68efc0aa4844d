import SlotSafe.Alignment
import SlotSafe.Layout

/-!
# Upgrades

An upgrade runs new code over the storage that old code wrote. Its original and its updated layout
are aligned, and each pair of items is classified by what agrees: the name, the label of the type,
both, or neither. Variables added after the last original one overlap no occupied slot and are left
out. The upgrade is safe when in every other step the types agree, so that each is `equal` or
`typechange`.
-/

namespace SlotSafe

namespace Action

/-- The action of a pair whose types agree and whose names differ. -/
def typechange : String := "typechange"

/-- The action of a pair whose names agree and whose types differ. -/
def rename : String := "rename"

/-- The action of a pair that agrees in neither. -/
def replace : String := "replace"

/-- The actions that leave occupied slots readable. Any other, known or not, is unsafe. -/
def isSafe (action : String) : Bool := action == equal || action == typechange

end Action

namespace Upgrade

/-- What a pair of items is, by the names and the labels of the types. -/
def classify (original updated : Layout) (o u : Item) : String :=
  let names := o.label == u.label
  let types := original.labelOf o == updated.labelOf u
  if types && names then Action.equal
  else if types then Action.typechange
  else if names then Action.rename
  else Action.replace

variable [NestingLimits]

/-- Whether every two names and every two labels of types are told apart or not, nothing in them
lying too deep. -/
def comparable (original updated : Layout) : Bool :=
  let deep := Document.comparesWithin NestingLimits.comparing
  original.items.all fun o => updated.items.all fun u =>
    deep o.label u.label && deep (original.labelOf o) (updated.labelOf u)

/-- Succeeds when the layouts can be compared. What follows is asked of such layouts only. -/
def mustCompare (original updated : Layout) : Except Fault Unit :=
  if comparable original updated then .ok () else .error (.tooDeep .comparing)

/-- The alignment of two layouts. -/
def alignment (original updated : Layout) : List (Change Item) :=
  align (classify original updated) original.items updated.items

/-- The alignment without the variables added at the end. -/
def operations (original updated : Layout) : List (Change Item) :=
  (alignment original updated).filter fun change => change.action != Action.append

/-- The steps that make the upgrade unsafe. -/
def unsafeSteps (original updated : Layout) : List (Change Item) :=
  (operations original updated).filter fun change => !Action.isSafe change.action

/-- The report of an unsafe step points at the updated item, or at the original one where there is
none. -/
def report (change : Change Item) : UpgradeError :=
  match change.updated.or change.original with
  | some item => ⟨item.src, change.action, item.label⟩
  | none => ⟨.text "unknown", change.action, .text "unknown"⟩

/-- The reports of all unsafe steps, in order. -/
def errors (original updated : Layout) : List UpgradeError :=
  (unsafeSteps original updated).map report

/-- Succeeds when the upgrade is safe. -/
def check (original updated : Layout) : Except Fault Unit :=
  if (errors original updated).isEmpty then .ok ()
  else .error (.incompatible (errors original updated))

end Upgrade

end SlotSafe
