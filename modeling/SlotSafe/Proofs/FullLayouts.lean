import SlotSafe.Proofs.Faults
import SlotSafe.Proofs.Inheritance
import SlotSafe.Proofs.ListedContracts

/-!
# The full layout of a contract

A contract names its bases by numbers. Each number is resolved among all the contracts of the
output, a repeated one by the last contract that has it, and each base that is found is extracted
for itself; the first that is missing or cannot be extracted ends the run. **So a full layout is
what the numbers in their order come to, one at a time** (`linearizedLayout_of_visits`). A missing
base and one that cannot be extracted may compete for the fault, and since a base is extracted
before the next number is resolved, the first of them wins whatever it lacks (`BaseFault`).
-/

namespace SlotSafe.Compilation

open Document

/-! ## Resolving numbers -/

/-- Whether a contract definition has a number. -/
def isNumbered (id : Document) (found : Document × Document) : Bool :=
  (found.2.at? "id").any id.sameKey

/-- **The contract that a number stands for**: the given definition for its own number, and the last
contract of the output that has it for any other. -/
def resolve (output definition id : Document) : Option Document :=
  if (definition.at? "id").any (id == ·) then some definition
  else ((listedContracts output).filter (isNumbered id)).getLast?.map (·.2)

/-- **The numbers that are visited**: the linearization from its end, or the own number of a
contract without one. -/
def visits (definition : Document) : List Document :=
  match definition.at? "linearizedBaseContracts" with
  | some (.list _ (id :: ids)) => (id :: ids).reverse
  | _ => (definition.at? "id").toList

/-- **A contract definition with a number and a name**, whose linearization is a list of numbers or
says nothing. -/
structure GivesBases (definition : Document) (name : String) : Prop where
  id : (definition.at? "id").isSome = true
  name : definition.at? "name" = some (.text name)
  bases : ∀ given, definition.at? "linearizedBaseContracts" = some given →
    given.isSet = true → ∃ i ids, given = .list i ids
  keys : ∀ id ∈ visits definition, id.isKey = true

/-- **An output that numbers contracts**: what a contract has as its number can be looked up. -/
structure NumbersContracts (output : Document) : Prop extends ListsContracts output where
  keys : ∀ found ∈ listedContracts output, ∀ id, found.2.at? "id" = some id → id.isKey = true

variable {output definition : Document} {name : String}

theorem enterById_of_keys {defs : List (Document × Document)}
    (hmaps : ∀ found ∈ defs, found.2.table?.isSome = true)
    (hkeys : ∀ found ∈ defs, ∀ id, found.2.at? "id" = some id → id.isKey = true)
    (known : Table Document) :
    enterById known defs = .ok (known.insertAll (defs.filterMap entryById)) := by
  induction defs generalizing known with
  | nil => rfl
  | cons found rest ih =>
    obtain ⟨path, node⟩ := found
    obtain ⟨hmap, hmaps⟩ := List.forall_mem_cons.mp hmaps
    obtain ⟨hkey, hkeys⟩ := List.forall_mem_cons.mp hkeys
    unfold enterById
    rw [mentions_of_isSome hmap]
    cases hat : node.at? "id" with
    | none =>
      have hentry : entryById (path, node) = none := by rw [entryById, hat]; rfl
      rw [List.filterMap_cons_none hentry]
      exact ih hmaps hkeys known
    | some id =>
      have hentry : entryById (path, node) = some (id, node) := by rw [entryById, hat]; rfl
      rw [List.filterMap_cons_some hentry, member_eq_ok_iff.mpr hat]
      exact (if_pos (hkey id hat)).trans (ih hmaps hkeys (known.insert id node))

/-- What is entered under a number are the contracts that have it. -/
theorem filter_filterMap_entryById (id : Document) (defs : List (Document × Document)) :
    ((defs.filterMap entryById).filter fun entry => id.sameKey entry.1).map (·.2)
      = (defs.filter (isNumbered id)).map (·.2) := by
  induction defs with
  | nil => rfl
  | cons found rest ih =>
    rw [List.filter_cons, isNumbered]
    cases hat : found.2.at? "id" with
    | none =>
      rw [List.filterMap_cons_none (by rw [entryById, hat]; rfl)]
      exact ih
    | some own =>
      rw [List.filterMap_cons_some (by rw [entryById, hat]; rfl), List.filter_cons, Option.any_some]
      dsimp only
      cases id.sameKey own
      · exact ih
      · exact congrArg (found.2 :: ·) ih

/-- **Of the contracts with one number the last is known.** -/
theorem exists_definitionsById (h : NumbersContracts output) :
    ∃ known, definitionsById output = .ok known
      ∧ ∀ id, known.find? id
        = ((listedContracts output).filter (isNumbered id)).getLast?.map (·.2) := by
  refine ⟨.ofList ((listedContracts output).filterMap entryById), ?_, fun id => ?_⟩
  · unfold definitionsById
    rw [definitions_eq_ok h.toListsContracts]
    exact enterById_of_keys (fun _ hfound => isSome_table?_of_listed hfound) h.keys .empty
  · rw [Table.find?_ofList_eq_getLast?, ← List.getLast?_map, filter_filterMap_entryById,
      List.getLast?_map]

/-- The numbers of the bases are those that are visited. -/
theorem baseIds_eq_ok (h : GivesBases definition name) :
    baseIds definition = .ok (visits definition) := by
  have hmap := isSome_table?_of_at? h.name
  obtain ⟨own, hown⟩ := Option.isSome_iff_exists.mp h.id
  unfold baseIds visits memberOrNull
  rw [memberOr_of_isSome hmap, hown]
  cases hgiven : definition.at? "linearizedBaseContracts" with
  | none => rw [member_eq_ok_iff.mpr hown]; rfl
  | some given =>
    show (if given.isSet = true then _ else _) = _
    by_cases hset : given.isSet = true
    · obtain ⟨i, ids, rfl⟩ := h.bases given hgiven hset
      rw [if_pos hset]
      cases ids with
      | nil => cases hset
      | cons id ids => rfl
    · rw [if_neg hset, member_eq_ok_iff.mpr hown]
      -- a list that says something is not empty
      cases given with
      | list i ids => cases ids with
        | nil => rfl
        | cons id ids => exact absurd rfl hset
      | _ => rfl

/-- What is found under a number, or the fault that nothing is. -/
def baseFor [NestingLimits] (output definition : Document) (name : String) (id : Document) :
    Except Fault Document :=
  match resolve output definition id with
  | some base => .ok base
  | none => id.shown >>= fun missing => .error (.rejected (.baseMissing missing name))

/-- **A base is found by what its number stands for.** -/
theorem base_eq_baseFor [NestingLimits] (h : GivesBases definition name) {known : Table Document}
    {id : Document} (hknown : known.find? id
      = ((listedContracts output).filter (isNumbered id)).getLast?.map (·.2))
    (hkey : id.isKey = true) : base known definition id = baseFor output definition name id := by
  obtain ⟨own, hown⟩ := Option.isSome_iff_exists.mp h.id
  unfold base baseFor resolve memberOrNull
  rw [memberOr_of_isSome (isSome_table?_of_at? h.name), hown, member_eq_ok_iff.mpr h.name, ← hknown]
  show (if id == own then _ else _) = match (if id == own then _ else _ : Option Document) with
    | some found => _
    | none => _
  by_cases hsame : (id == own) = true
  · rw [if_pos hsame, if_pos hsame]
  · rw [if_neg hsame, if_neg hsame, lookUp, if_pos hkey]
    cases known.find? id <;> rfl

/-! ## Visiting them -/

/-- **A number comes to a layout** when it stands for a contract from which this layout is
extracted. -/
def ComesTo [NestingLimits] (locate : Document → Logged Document) (output definition id : Document)
    (l : Layout) : Prop :=
  ∃ base, resolve output definition id = some base ∧ (Extraction.layout locate base).result = .ok l

/-- The layout of what a number stands for. -/
def visit [NestingLimits] (locate : Document → Logged Document) (output definition : Document)
    (name : String) (id : Document) : Except Fault Layout :=
  baseFor output definition name id >>= fun base => (Extraction.layout locate base).result

/-- **The fault of a base**: its number stands for no contract, or for one that is not extracted. -/
inductive BaseFault [NestingLimits] (locate : Document → Logged Document)
    (output definition : Document) (name : String) (id : Document) : Fault → Prop
  | missing {shown : String} (h : resolve output definition id = none)
      (hshown : id.shown = .ok shown) :
      BaseFault locate output definition name id (.rejected (.baseMissing shown name))
  /-- The message that a base is missing would show a number that has no written form. -/
  | unshown {fault : Fault} (h : resolve output definition id = none)
      (hshown : id.shown = .error fault) : BaseFault locate output definition name id fault
  | unread {base : Document} {fault : Fault} (h : resolve output definition id = some base)
      (hlayout : (Extraction.layout locate base).result = .error fault) :
      BaseFault locate output definition name id fault

variable {locate : Document → Logged Document} {id : Document}

/-- A number is visited with success when it comes to a layout. -/
theorem visit_eq_ok_iff [NestingLimits] {l : Layout} :
    visit locate output definition name id = .ok l ↔ ComesTo locate output definition id l := by
  unfold visit baseFor ComesTo
  cases resolve output definition id with
  | none => simp [bind_eq_ok_iff]
  | some base => simp [bind_eq_ok_iff]

theorem visit_eq_error_iff [NestingLimits] {fault : Fault} :
    visit locate output definition name id = .error fault
      ↔ BaseFault locate output definition name id fault := by
  unfold visit baseFor
  constructor
  · intro h
    cases hresolve : resolve output definition id with
    | some base =>
      rw [hresolve] at h
      exact .unread hresolve h
    | none =>
      rw [hresolve] at h
      cases hshown : id.shown with
      | error fault' =>
        rw [hshown] at h
        cases h
        exact .unshown hresolve hshown
      | ok shown =>
        rw [hshown] at h
        cases h
        exact .missing hresolve hshown
  · intro h
    cases h with
    | missing h hshown => rw [h, hshown]; rfl
    | unshown h hshown => rw [h, hshown]; rfl
    | unread h hlayout => rw [h]; exact hlayout

/-- A base is found and extracted before the next one is looked for. -/
theorem result_baseLayouts [NestingLimits] {known : Table Document} {ids : List Document}
    (h : ∀ id ∈ ids, base known definition id = baseFor output definition name id) :
    (baseLayouts locate known definition ids).result
      = ids.mapM (visit locate output definition name) := by
  induction ids with
  | nil => rfl
  | cons id rest ih =>
    obtain ⟨hid, hrest⟩ := List.forall_mem_cons.mp h
    rw [List.mapM_cons, ← ih hrest, baseLayouts, visit, bind_assoc, hid]
    simp only [Logged.result_bind, Logged.result_pure]
    rfl

/-- **A full layout joins what the numbers come to.** -/
theorem result_linearizedLayout [NestingLimits] (h : GivesBases definition name)
    (houtput : NumbersContracts output) :
    (linearizedLayout output definition locate).result
      = ((visits definition).mapM (visit locate output definition name)).map .concat := by
  obtain ⟨known, hknown, hfind⟩ := exists_definitionsById houtput
  have hbases : ∀ id ∈ visits definition,
      base known definition id = baseFor output definition name id :=
    fun id hid => base_eq_baseFor h (hfind id) (h.keys id hid)
  unfold linearizedLayout
  rw [hknown, Logged.lift_ok_bind, baseIds_eq_ok h, Logged.lift_ok_bind, Logged.result_bind,
    result_baseLayouts hbases]
  cases (visits definition).mapM (visit locate output definition name) <;> rfl

/-- **The full layout of a contract.** It is extracted exactly when each visited number comes to a
layout, and then it joins these layouts in the order in which they are visited. If it is not
extracted, the fault is that of the first number that stands for no contract, or for one that is not
extracted. -/
theorem linearizedLayout_of_visits [NestingLimits] (locate : Document → Logged Document)
    (h : GivesBases definition name) (houtput : NumbersContracts output) :
    ((∃ l, (linearizedLayout output definition locate).result = .ok l)
      ↔ ∀ id ∈ visits definition, ∃ l, ComesTo locate output definition id l)
    ∧ (∀ l, (linearizedLayout output definition locate).result = .ok l → ∃ layouts,
        List.Forall₂ (ComesTo locate output definition) (visits definition) layouts
        ∧ l = .concat layouts ∧ l.items = layouts.flatMap (·.items))
    ∧ ∀ fault, (linearizedLayout output definition locate).result = .error fault
      ↔ ∃ before id after, visits definition = before ++ id :: after
        ∧ (∀ earlier ∈ before, ∃ l, ComesTo locate output definition earlier l)
        ∧ BaseFault locate output definition name id fault := by
  rw [result_linearizedLayout h houtput]
  refine ⟨?_, fun l hl => ?_, fun fault => ?_⟩
  · simp only [map_eq_ok_iff, exists_comm (α := Layout), exists_and_left, exists_eq', and_true,
      exists_mapM_eq_ok_iff, visit_eq_ok_iff]
  · obtain ⟨layouts, hlayouts, rfl⟩ := map_eq_ok_iff.mp hl
    exact ⟨layouts, (mapM_eq_ok_iff.mp hlayouts).imp fun _ _ => visit_eq_ok_iff.mp, rfl, rfl⟩
  · simp only [map_eq_error_iff, mapM_eq_error_iff, FailsFirst, visit_eq_ok_iff, visit_eq_error_iff]

/-! ## A number with two contracts -/

/-- What the compiler writes of a contract gives its bases. -/
theorem givesBases_contractNode (n : Int) (name : String) (linearized : List Int)
    (nodes : List Document) : GivesBases (contractNode n name linearized nodes) name := by
  have hlist : (contractNode n name linearized nodes).at? "linearizedBaseContracts"
      = some (.row (linearized.map .int)) := rfl
  refine ⟨rfl, rfl, fun given hgiven _ => ?_, fun id hid => ?_⟩
  · exact ⟨none, linearized.map .int, Option.some.inj (hgiven.symm.trans hlist)⟩
  · obtain ⟨m, rfl⟩ : ∃ m, id = .int m := by
      rw [visits, hlist] at hid
      cases linearized with
      | nil => exact ⟨n, List.mem_singleton.mp hid⟩
      | cons m rest =>
        change id ∈ ((m :: rest).map Document.int).reverse at hid
        obtain ⟨m, -, rfl⟩ := List.mem_map.mp (List.mem_reverse.mp hid)
        exact ⟨m, rfl⟩
    rfl

/-- A base that has the number of another one. -/
def otherBaseNode : Document :=
  contractNode 1 "Base" [1] [variableNode "admin" "t_address" "address" false]

/-- An output with two contracts of one number. -/
def forkedOutput : Document :=
  .record [("sources", .record [
    ("lib/v1/Base.sol", .record [("ast", .record [("nodes", .row [baseNode])])]),
    ("lib/v2/Base.sol", .record [("ast", .record [("nodes", .row [otherBaseNode])])])])]

/-- A contract with a base that is nowhere. -/
def strayNode : Document := contractNode 3 "Stray" [3, 404, 1] []

/-- The token takes the last contract of its base's number. A base that is nowhere is told by its
number. -/
theorem linearizedLayout_forkedOutput :
    (∃ l, (linearizedLayout forkedOutput tokenNode rawReference).result = .ok l
      ∧ l.items.map (·.label) = [.text "admin", .text "minter", .text "balances"])
    ∧ (linearizedLayout forkedOutput strayNode rawReference).result
      = .error (.rejected (.baseMissing "404" "Stray")) := by
  have hlisted : listedContracts forkedOutput
      = [(.text "lib/v1/Base.sol", baseNode), (.text "lib/v2/Base.sol", otherBaseNode)] := rfl
  have houtput : NumbersContracts forkedOutput := by
    refine ⟨⟨⟨rfl, rfl, by decide⟩, by decide⟩, ?_⟩
    rw [hlisted]
    refine List.forall_mem_cons.mpr
      ⟨fun id hid => ?_, List.forall_mem_singleton.mpr fun id hid => ?_⟩
    all_goals
      obtain rfl : Document.int 1 = id := Option.some.inj hid
      rfl
  have htoken : GivesBases tokenNode "Token" := givesBases_contractNode ..
  have hstray : GivesBases strayNode "Stray" := givesBases_contractNode ..
  obtain ⟨first, hfirst⟩ :
      ∃ l, (Extraction.layout rawReference otherBaseNode).result = .ok l := ⟨_, rfl⟩
  obtain ⟨own, hown⟩ : ∃ l, (Extraction.layout rawReference tokenNode).result = .ok l := ⟨_, rfl⟩
  have hlast : ((listedContracts forkedOutput).filter (isNumbered (.int 1))).getLast?
      = some (.text "lib/v2/Base.sol", otherBaseNode) := by rw [hlisted]; rfl
  have hbase : ∀ {definition : Document} {n : Int}, definition.at? "id" = some (.int n) →
      (Document.int 1 == .int n) = false →
      resolve forkedOutput definition (.int 1) = some otherBaseNode := by
    intro definition n hid hne
    rw [resolve, hid, Option.any_some, hne, hlast]
    rfl
  constructor
  · obtain ⟨hok, hread, -⟩ := linearizedLayout_of_visits rawReference htoken houtput
    obtain ⟨l, hl⟩ := hok.mpr (List.forall_mem_cons.mpr ⟨⟨first, _, hbase rfl rfl, hfirst⟩,
      List.forall_mem_singleton.mpr ⟨own, tokenNode, rfl, hown⟩⟩)
    obtain ⟨layouts, hlayouts, -, hitems⟩ := hread l hl
    obtain ⟨l₁, others, ⟨b₁, hb₁, hl₁⟩, hothers, rfl⟩ := List.forall₂_cons_left_iff.mp hlayouts
    obtain ⟨l₂, rest, ⟨b₂, hb₂, hl₂⟩, hrest, rfl⟩ := List.forall₂_cons_left_iff.mp hothers
    obtain rfl := List.forall₂_nil_left_iff.mp hrest
    obtain rfl := Option.some.inj ((hbase rfl rfl).symm.trans hb₁)
    obtain rfl : tokenNode = b₂ := Option.some.inj hb₂
    refine ⟨l, hl, ?_⟩
    rw [hitems]
    obtain rfl := Except.ok.inj hl₁
    obtain rfl := Except.ok.inj hl₂
    rfl
  · have hshown : (Document.int 404).shown = .ok "404" := by
      have hwritable : Decimal.isWritable 404 = true := by decide +kernel
      show (intText 404).mapError _ = _
      rw [intText, if_pos hwritable]
      rfl
    obtain ⟨-, -, hfault⟩ := linearizedLayout_of_visits rawReference hstray houtput
    refine (hfault _).mpr ⟨[.int 1], .int 404, [.int 3], rfl, ?_, .missing rfl hshown⟩
    exact List.forall_mem_singleton.mpr ⟨first, _, hbase rfl rfl, hfirst⟩

end SlotSafe.Compilation
