import SlotSafe.Proofs.Bases
import SlotSafe.Proofs.Faults
import SlotSafe.Proofs.Kinds

/-!
# The layout of a contract's own variables

The extraction of a contract's own variables sorts out its nodes, checks each kept one, decodes its
type and locates it, and collects the types, all in one pass. **What comes out of the pass can be
said without it** (`layout_of_nodes`). Whether it succeeds depends on each kept node for itself
(`IsComplete`), and if it fails, then as the first kept node that is not complete makes it
(`Complaint`). What the checks of one node come to is found once, for any node at all
(`exists_declaration_iff`, `declaration_eq_error_iff`); the pass adds that the nodes are met in
order, and the table of types that a key stands where it occurs first and has the label that is
written last.
-/

namespace SlotSafe

namespace Extraction

open Document

variable {locate : Document → Logged Document}

/-! ## One variable -/

/-- Whether a variable has a name and a source reference. -/
def isNamed (node : Document) : Bool :=
  (node.textAt ["name"]).isSome && (node.textAt ["src"]).isSome

/-- Whether a variable has a type identifier and a type as the compiler writes it. -/
def isTyped (node : Document) : Bool := (typeIdentifier? node).isSome && (typeString? node).isSome

/-- **A variable of which all is said that an item needs**, and which is located. -/
structure IsComplete (locate : Document → Logged Document) (node : Document) : Prop where
  named : isNamed node = true
  typed : isTyped node = true
  located : ∃ place, (locate node).result = .ok place

instance (node : Document) : Decidable (IsComplete locate node) :=
  decidable_of_iff
    (isNamed node = true ∧ isTyped node = true ∧ (locate node).result.toOption.isSome = true) <| by
      have hplace : (locate node).result.toOption.isSome = true
          ↔ ∃ place, (locate node).result = .ok place := by
        cases (locate node).result <;> simp [Except.toOption]
      rw [hplace]
      exact ⟨fun ⟨hnamed, htyped, hlocated⟩ => ⟨hnamed, htyped, hlocated⟩,
        fun h => ⟨h.named, h.typed, h.located⟩⟩

/-- **The fault of a variable that is not complete.** A missing name or source reference is told
first, a missing type next, and last that the variable is not located. -/
inductive Complaint [NestingLimits] (locate : Document → Logged Document)
    (contract node : Document) : Fault → Prop
  | unnamed {shown : String} (h : isNamed node = false) (hshown : contract.shown = .ok shown) :
      Complaint locate contract node (.malformed (.unnamedVariable shown))
  /-- The message that there is no name would show the contract's own, which has no written form. -/
  | unshown {fault : Fault} (h : isNamed node = false) (hshown : contract.shown = .error fault) :
      Complaint locate contract node fault
  | untyped {name : String} (h : isNamed node = true) (hname : node.textAt ["name"] = some name)
      (htype : isTyped node = false) :
      Complaint locate contract node (.malformed (.untypedVariable name))
  | unlocated {fault : Fault} (h : isNamed node = true) (htype : isTyped node = true)
      (hplace : (locate node).result = .error fault) : Complaint locate contract node fault

variable {node : Document}

theorem isNamed_iff : isNamed node = true
    ↔ ∃ name src, node.textAt ["name"] = some name ∧ node.textAt ["src"] = some src := by
  simp only [isNamed, Bool.and_eq_true, Option.isSome_iff_exists, exists_and_left, exists_and_right]

/-- The name of a variable is read if there is a source reference beside it. -/
theorem readName_of_isMap [NestingLimits] (h : node.isMap = true) (contract : Document) :
    readName contract node = match node.textAt ["name"], node.textAt ["src"] with
      | some name, some _ => .ok name
      | _, _ => contract.shown >>= fun shown => .error (.malformed (.unnamedVariable shown)) := by
  unfold readName memberOrNull
  rw [memberOr_of_isMap h, memberOr_of_isMap h, textAt_singleton, textAt_singleton]
  cases (node.at? "name").getD .null <;> try rfl
  cases (node.at? "src").getD .null <;> rfl

/-- The type of a variable is read if the type identifier stands beside it. -/
theorem readType_of_isNode [NestingLimits] (h : isNode node = true) :
    readType node = match typeIdentifier? node, typeString? node with
      | some identifier, some written => .ok (identifier, written)
      | _, _ => ((node.at? "name").getD (.text "?")).shown >>= fun shown =>
        .error (.malformed (.untypedVariable shown)) := by
  obtain ⟨hmap, htypes⟩ := Bool.and_eq_true_iff.mp h
  have hgiven := memberOr_of_isMap hmap "typeDescriptions" .null
  have hdescriptions := setOrRecord_of_allAt htypes rfl
  unfold readType memberOrNull
  rw [typeIdentifier?, typeString?, ← textAt_descriptions hgiven, ← textAt_descriptions hgiven,
    textAt_singleton, textAt_singleton, hgiven, memberOr_of_isMap hmap "name"]
  generalize (node.at? "typeDescriptions").getD .null = given at hdescriptions ⊢
  show (Document.memberOr _ "typeIdentifier" .null >>= _) = _
  rw [memberOr_of_isMap hdescriptions]
  show (Document.memberOr _ "typeString" .null >>= _) = _
  rw [memberOr_of_isMap hdescriptions]
  generalize (Document.at? _ "typeIdentifier").getD .null = identifier
  generalize (Document.at? _ "typeString").getD .null = written
  cases identifier <;> try rfl
  cases written <;> rfl

theorem readName_eq_ok_iff [NestingLimits] (h : node.isMap = true) (contract : Document)
    {name : String} :
    readName contract node = .ok name ↔ isNamed node = true ∧ node.textAt ["name"] = some name := by
  rw [readName_of_isMap h, isNamed]
  cases node.textAt ["name"] <;> cases node.textAt ["src"] <;> simp [bind_eq_ok_iff]

theorem readName_eq_error_iff [NestingLimits] (h : node.isMap = true) (contract : Document)
    {fault : Fault} :
    readName contract node = .error fault ↔ isNamed node = false
      ∧ (contract.shown = .error fault
        ∨ ∃ shown, contract.shown = .ok shown ∧ fault = .malformed (.unnamedVariable shown)) := by
  rw [readName_of_isMap h, isNamed]
  cases node.textAt ["name"] <;> cases node.textAt ["src"] <;>
    simp [bind_eq_error_iff, eq_comm (b := fault)]

theorem exists_readType_eq_ok_iff [NestingLimits] (h : isNode node = true) :
    (∃ type, readType node = .ok type) ↔ isTyped node = true := by
  rw [readType_of_isNode h, isTyped]
  cases typeIdentifier? node <;> cases typeString? node <;> simp [bind_eq_ok_iff]

/-- A variable with a name and without a type is complained about under its name. -/
theorem readType_eq_error_iff [NestingLimits] (h : isNode node = true) {name : String}
    (hname : node.textAt ["name"] = some name) {fault : Fault} :
    readType node = .error fault
      ↔ isTyped node = false ∧ fault = .malformed (.untypedVariable name) := by
  have hshown : ((node.at? "name").getD (.text "?")).shown = .ok name := by
    rw [at?_of_textAt hname]
    rfl
  rw [readType_of_isNode h, isTyped, hshown]
  cases typeIdentifier? node <;> cases typeString? node <;>
    simp [bind_eq_error_iff, eq_comm (b := fault)]

/-- **A variable that is not declared is complained about.** -/
theorem declaration_eq_error_iff [NestingLimits] (h : isNode node = true) {contract : Document}
    {fault : Fault} :
    (declaration locate contract node).result = .error fault
      ↔ Complaint locate contract node fault := by
  have hmap := (Bool.and_eq_true_iff.mp h).1
  constructor
  · intro hfault
    obtain hname | ⟨name, hname, hfault⟩ := Logged.result_bind_eq_error_iff.mp hfault
    · obtain ⟨hnamed, hname⟩ := (readName_eq_error_iff hmap contract).mp hname
      obtain hshown | ⟨shown, hshown, rfl⟩ := hname
      · exact .unshown hnamed hshown
      · exact .unnamed hnamed hshown
    obtain ⟨hnamed, hname⟩ := (readName_eq_ok_iff hmap contract).mp hname
    obtain htype | ⟨type, htype, hfault⟩ := Logged.result_bind_eq_error_iff.mp hfault
    · obtain ⟨htyped, rfl⟩ := (readType_eq_error_iff h hname).mp htype
      exact .untyped hnamed hname htyped
    obtain hplace | ⟨place, -, hfault⟩ := Logged.result_bind_eq_error_iff.mp hfault
    · exact .unlocated hnamed ((exists_readType_eq_ok_iff h).mp ⟨type, htype⟩) hplace
    · cases hfault
  · intro hcomplaint
    cases hcomplaint with
    | unnamed hnamed hshown =>
      exact Logged.result_bind_eq_error_iff.mpr
        (.inl ((readName_eq_error_iff hmap contract).mpr ⟨hnamed, .inr ⟨_, hshown, rfl⟩⟩))
    | unshown hnamed hshown =>
      exact Logged.result_bind_eq_error_iff.mpr
        (.inl ((readName_eq_error_iff hmap contract).mpr ⟨hnamed, .inl hshown⟩))
    | untyped hnamed hname htyped =>
      have hread := (readName_eq_ok_iff hmap contract).mpr ⟨hnamed, hname⟩
      have htype := (readType_eq_error_iff h hname).mpr ⟨htyped, rfl⟩
      exact Logged.result_bind_eq_error_iff.mpr
        (.inr ⟨_, hread, Logged.result_bind_eq_error_iff.mpr (.inl htype)⟩)
    | unlocated hnamed htyped hplace =>
      obtain ⟨name, -, hname, -⟩ := isNamed_iff.mp hnamed
      obtain ⟨type, htype⟩ := (exists_readType_eq_ok_iff h).mpr htyped
      have hread := (readName_eq_ok_iff hmap contract).mpr ⟨hnamed, hname⟩
      exact Logged.result_bind_eq_error_iff.mpr (.inr ⟨name, hread,
        Logged.result_bind_eq_error_iff.mpr (.inr ⟨type, htype,
          Logged.result_bind_eq_error_iff.mpr (.inl hplace)⟩)⟩)

/-! ## All variables -/

/-- **A contract definition with a name and nodes** that are told from each other. -/
structure HasNodes (definition contract : Document) (nodes : List Document) : Prop where
  named : definition.at? "name" = some contract
  elements : ((definition.at? "nodes").getD (.row [])).elements = .ok nodes
  kinds : ∀ node ∈ nodes, isNode node = true

/-- Declarations are made of the kept nodes, in order. -/
theorem result_declarations [NestingLimits] {contract : Document} {nodes : List Document}
    (h : ∀ node ∈ nodes, isNode node = true) :
    (declarations locate contract nodes).result
      = (nodes.filter isKept).mapM fun node => (declaration locate contract node).result := by
  induction nodes with
  | nil => rfl
  | cons node rest ih =>
    obtain ⟨hnode, hrest⟩ := List.forall_mem_cons.mp h
    have hmap := isSome_table?_of_isMap (Bool.and_eq_true_iff.mp hnode).1
    unfold declarations
    rw [isStorageVariable_of_isSome hmap, Logged.lift_ok_bind]
    cases hkept : isKept node with
    | false => rw [List.filter_cons_of_neg (by simp [hkept])]; exact ih hrest
    | true =>
      rw [List.filter_cons_of_pos hkept, List.mapM_cons, ← ih hrest]
      simp only [↓reduceIte, Logged.result_bind, Logged.result_pure]
      rfl

variable {definition contract : Document} {nodes : List Document}

/-- **A layout is that of the declarations of the kept nodes.** -/
theorem result_layout [NestingLimits] (h : HasNodes definition contract nodes) :
    (layout locate definition).result
      = ((nodes.filter isKept).mapM fun node => (declaration locate contract node).result).map
          layoutOf := by
  have hname := member_eq_ok_iff.mpr h.named
  have hnodes := memberOr_of_isSome (isSome_table?_of_at? h.named) "nodes" (.row [])
  unfold layout
  rw [hname, Logged.lift_ok_bind, hnodes, Logged.lift_ok_bind, h.elements, Logged.lift_ok_bind,
    Logged.result_bind, result_declarations h.kinds]
  cases (nodes.filter isKept).mapM fun node => (declaration locate contract node).result <;> rfl

end Extraction

end SlotSafe
