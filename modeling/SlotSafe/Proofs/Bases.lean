import SlotSafe.Proofs.Declarations
import SlotSafe.Proofs.Tables
import SlotSafe.Proofs.TypeKeys

/-!
# Every variable keeps its own type

The full layout of a contract is joined from the layouts of its bases, and types are collected under
their keys twice on the way: among the variables of a contract, and again when layouts are joined.
Each time the last type under a key replaces those before it. **Still every item of the full layout
has the type that stands at its own variable** (`linearizedLayout_keeps_types`), provided that no
identifier holds a character that only keys have, and that variables with one identifier have one
type. For two identifiers never share a key then, so whatever is replaced under a key is replaced by
itself.
-/

namespace SlotSafe

open Extraction

namespace Extraction

/-- **The types of variables agree**: their identifiers are such as the compiler writes, and an
identifier stands for one type everywhere. -/
structure TypesAgree (vs : List (Document × Document)) : Prop where
  identifiers : ∀ v ∈ vs, ∀ s, typeIdentifier? v.2 = some s → TypeKey.IsIdentifier s
  written : ∀ v ∈ vs, ∀ w ∈ vs, typeIdentifier? v.2 = typeIdentifier? w.2 →
    typeString? v.2 = typeString? w.2

/-- **Declarations with one type key have one type.** -/
def KeysAgree (ds : List Declaration) : Prop :=
  ∀ d ∈ ds, ∀ e ∈ ds, d.typeKey = e.typeKey → d.typeLabel = e.typeLabel

variable {locate : Document → Logged Document}

/-- Where the types of variables agree, so do those of their declarations, since no two identifiers
have one key. -/
theorem TypesAgree.keysAgree {vs : List (Document × Document)} {ds : List Declaration}
    (h : TypesAgree vs) (hds : List.Forall₂ (Declares locate) vs ds) : KeysAgree ds := by
  intro d hd e he hkey
  obtain ⟨v, hv, hdv⟩ := exists_mem_of_forall₂ hds hd
  obtain ⟨w, hw, hew⟩ := exists_mem_of_forall₂ hds he
  obtain ⟨s, hs, hsd⟩ := Option.map_eq_some_iff.mp hdv.typeKey
  obtain ⟨t, ht, hte⟩ := Option.map_eq_some_iff.mp hew.typeKey
  have hst : s = t := TypeKey.eq_of_decode_eq (h.identifiers v hv s hs) (h.identifiers w hw t ht)
    (hsd.trans (hkey.trans hte.symm))
  have hwritten := h.written v hv w hw (hs.trans (hst ▸ ht.symm))
  rw [hdv.typeLabel, hew.typeLabel] at hwritten
  exact Option.some.inj hwritten

theorem items_concat (dss : List (List Declaration)) :
    (Layout.concat (dss.map layoutOf)).items = dss.flatten.map Declaration.item := by
  change Layout.joinedItems (dss.map layoutOf) = _
  rw [Layout.joinedItems, List.flatMap_map, List.map_flatten, List.flatMap]
  rfl

/-- **Joining layouts keeps the type of every variable** where declarations with one type key have
one type. -/
theorem typeLabel_concat {dss : List (List Declaration)} (hagree : KeysAgree dss.flatten)
    {d : Declaration} (hd : d ∈ dss.flatten) :
    (Layout.concat (dss.map layoutOf)).typeLabel d.item = .ok (.text d.typeLabel) := by
  have hfind : (Layout.joinedTypes (dss.map layoutOf)).find? (.text d.typeKey)
      = some (.text d.typeLabel) := by
    refine Table.find?_ofList ?_ ?_
    · obtain ⟨ds, hds, hmem⟩ := List.mem_flatten.mp hd
      obtain ⟨entry, hentry, hkey⟩ := List.any_eq_true.mp
        ((layoutOf ds).closed d.item (List.mem_map_of_mem hmem))
      exact ⟨entry, List.mem_flatMap.mpr ⟨_, List.mem_map_of_mem hds, hentry⟩, hkey⟩
    · intro entry hentry hkey
      -- whatever stands under the key came from a declaration with this key, through two tables
      obtain ⟨l, hl, hmem⟩ := List.mem_flatMap.mp hentry
      obtain ⟨ds, hds, rfl⟩ := List.mem_map.mp hl
      obtain ⟨origin, horigin, hvalue, hsame⟩ := Table.exists_of_mem_ofList hmem
      obtain ⟨e, he, rfl⟩ := List.mem_map.mp horigin
      have heq : d.typeKey = e.typeKey := by
        simpa [Declaration.typeEntry] using (hsame (.text d.typeKey)).symm.trans hkey
      rw [← hvalue, hagree d hd e (List.mem_flatten_of_mem hds he) heq]
      rfl
  have hlook : Document.lookUp (Layout.concat (dss.map layoutOf)).types d.item.type
      = .ok (some (.text d.typeLabel)) := congrArg Except.ok hfind
  rw [Layout.typeLabel, hlook]
  rfl

theorem labelOf_concat {dss : List (List Declaration)} (hagree : KeysAgree dss.flatten)
    {d : Declaration} (hd : d ∈ dss.flatten) :
    (Layout.concat (dss.map layoutOf)).labelOf d.item = .text d.typeLabel := by
  have hmem : d.item ∈ (Layout.concat (dss.map layoutOf)).items := by
    rw [items_concat]
    exact List.mem_map_of_mem hd
  exact Except.ok.inj ((Layout.typeLabel_eq_labelOf _ hmem).symm.trans (typeLabel_concat hagree hd))

end Extraction

namespace Compilation

variable {locate : Document → Logged Document}

/-- The definitions of a contract and its bases, the most basic one first. -/
def bases [NestingLimits] (output definition : Document) : Except Fault (List Document) := do
  let known ← definitionsById output
  (← baseIds definition).mapM (base known definition)

/-- The kept variables of contract definitions, one definition after the other. Each variable stands
beside the definition that declares it. -/
def variablesOf : List Document → Except Fault (List (Document × Document))
  | [] => .ok []
  | definition :: rest => do
    let nodes ← keptNodes definition
    let others ← variablesOf rest
    .ok (nodes.map (definition, ·) ++ others)

/-- The kept variables of a contract and its bases, the most basic one first. -/
def keptVariables [NestingLimits] (output definition : Document) :
    Except Fault (List (Document × Document)) := do
  variablesOf (← bases output definition)

theorem baseLayouts_eq_ok_iff [NestingLimits] {known : Table Document} {definition : Document}
    {ids : List Document} {layouts : List Layout} :
    (baseLayouts locate known definition ids).result = .ok layouts ↔
      ∃ bs, List.Forall₂ (fun id b => base known definition id = .ok b) ids bs
        ∧ List.Forall₂ (fun b l => (Extraction.layout locate b).result = .ok l) bs layouts := by
  induction ids generalizing layouts with
  | nil =>
    constructor
    · intro h
      obtain rfl := Except.ok.inj h
      exact ⟨[], .nil, .nil⟩
    · rintro ⟨bs, hbs, hlayouts⟩
      obtain rfl := List.forall₂_nil_left_iff.mp hbs
      obtain rfl := List.forall₂_nil_left_iff.mp hlayouts
      rfl
  | cons id ids ih =>
    constructor
    · intro h
      obtain ⟨b, hb, h⟩ := Logged.result_bind_eq_ok_iff.mp h
      obtain ⟨l, hl, h⟩ := Logged.result_bind_eq_ok_iff.mp h
      obtain ⟨others, hothers, h⟩ := Logged.result_bind_eq_ok_iff.mp h
      obtain rfl := Except.ok.inj h
      obtain ⟨bs, hbs, hlayouts⟩ := ih.mp hothers
      exact ⟨b :: bs, .cons hb hbs, .cons hl hlayouts⟩
    · rintro ⟨bs, hbs, hlayouts⟩
      obtain ⟨b, bs, hb, hbs', rfl⟩ := List.forall₂_cons_left_iff.mp hbs
      obtain ⟨l, others, hl, hothers, rfl⟩ := List.forall₂_cons_left_iff.mp hlayouts
      exact Logged.result_bind_eq_ok_iff.mpr ⟨b, hb, Logged.result_bind_eq_ok_iff.mpr
        ⟨l, hl, Logged.result_bind_eq_ok_iff.mpr ⟨others, ih.mpr ⟨bs, hbs', hothers⟩, rfl⟩⟩⟩

/-- **A full layout joins the layouts of the bases.** -/
theorem linearizedLayout_eq_ok_iff [NestingLimits] {output definition : Document} {l : Layout} :
    (linearizedLayout output definition locate).result = .ok l ↔
      ∃ bs layouts, bases output definition = .ok bs
        ∧ List.Forall₂ (fun b l => (Extraction.layout locate b).result = .ok l) bs layouts
        ∧ l = .concat layouts := by
  constructor
  · intro h
    obtain ⟨known, hknown, h⟩ := Logged.result_bind_eq_ok_iff.mp h
    obtain ⟨ids, hids, h⟩ := Logged.result_bind_eq_ok_iff.mp h
    obtain ⟨layouts, hlayouts, h⟩ := Logged.result_bind_eq_ok_iff.mp h
    obtain ⟨bs, hbs, hall⟩ := baseLayouts_eq_ok_iff.mp hlayouts
    exact ⟨bs, layouts, bind_eq_ok_iff.mpr ⟨known, hknown, bind_eq_ok_iff.mpr
      ⟨ids, hids, mapM_eq_ok_iff.mpr hbs⟩⟩, hall, (Except.ok.inj h).symm⟩
  · rintro ⟨bs, layouts, hbases, hall, rfl⟩
    obtain ⟨known, hknown, h⟩ := bind_eq_ok_iff.mp hbases
    obtain ⟨ids, hids, h⟩ := bind_eq_ok_iff.mp h
    exact Logged.result_bind_eq_ok_iff.mpr ⟨known, hknown, Logged.result_bind_eq_ok_iff.mpr
      ⟨ids, hids, Logged.result_bind_eq_ok_iff.mpr
        ⟨layouts, baseLayouts_eq_ok_iff.mpr ⟨bs, mapM_eq_ok_iff.mp h, hall⟩, rfl⟩⟩⟩

/-- The layouts of definitions are those of the declarations of their kept variables. -/
theorem exists_declarations_of_bases [NestingLimits] {bs : List Document} {layouts : List Layout}
    (h : List.Forall₂ (fun b l => (Extraction.layout locate b).result = .ok l) bs layouts) :
    ∃ (vs : List (Document × Document)) (dss : List (List Declaration)),
      variablesOf bs = .ok vs ∧ List.Forall₂ (Declares locate) vs dss.flatten
        ∧ layouts = dss.map layoutOf := by
  induction h with
  | nil => exact ⟨[], [], rfl, .nil, rfl⟩
  | @cons b l bs layouts hl h ih =>
    obtain ⟨vs, dss, hvs, hdss, rfl⟩ := ih
    obtain ⟨nodes, ds, hnodes, hds, rfl⟩ := exists_declarations hl
    refine ⟨nodes.map (b, ·) ++ vs, ds :: dss, ?_, ?_, rfl⟩
    · exact bind_eq_ok_iff.mpr ⟨nodes, hnodes, bind_eq_ok_iff.mpr ⟨vs, hvs, rfl⟩⟩
    · exact List.rel_append (List.forall₂_map_left_iff.mpr hds) hdss

/-- **Every variable keeps its own type.** The items of a full layout are those of the kept
variables of the bases, in the order of declaration with the most basic contract first. Each says
what its variable says, and where the types of these variables agree, its type is labelled as its
variable writes it. -/
theorem linearizedLayout_keeps_types [NestingLimits] {output definition : Document} {l : Layout}
    (h : (linearizedLayout output definition locate).result = .ok l) :
    ∃ vs ds, keptVariables output definition = .ok vs
      ∧ List.Forall₂ (Declares locate) vs ds
      ∧ l.items = ds.map Declaration.item
      ∧ (TypesAgree vs → ∀ d ∈ ds, l.typeLabel d.item = .ok (.text d.typeLabel)) := by
  obtain ⟨bs, layouts, hbases, hlayouts, rfl⟩ := linearizedLayout_eq_ok_iff.mp h
  obtain ⟨vs, dss, hvs, hdss, rfl⟩ := exists_declarations_of_bases hlayouts
  refine ⟨vs, dss.flatten, bind_eq_ok_iff.mpr ⟨bs, hbases, hvs⟩, hdss, items_concat dss,
    fun hagree d hd => typeLabel_concat (hagree.keysAgree hdss) hd⟩

/-! ## A token and its base -/

/-- The node of a variable, as the compiler writes it. -/
def variableNode (name identifier written : String) (constant : Bool) : Document :=
  .record [("nodeType", .text "VariableDeclaration"), ("name", .text name),
    ("constant", .bool constant),
    ("typeDescriptions", .record [("typeIdentifier", .text identifier),
      ("typeString", .text written)]),
    ("src", .text "40:20:0")]

/-- The node of a contract, as the compiler writes it. -/
def contractNode (id : Int) (name : String) (linearized : List Int) (nodes : List Document) :
    Document :=
  .record [("nodeType", .text "ContractDefinition"), ("id", .int id), ("name", .text name),
    ("linearizedBaseContracts", .row (linearized.map .int)), ("nodes", .row nodes)]

/-- A contract with an owner and a constant. -/
def baseNode : Document :=
  contractNode 1 "Base" [1] [variableNode "owner" "t_address" "address" false,
    variableNode "CAP" "t_uint256" "uint256" true]

/-- A contract on this base, with two variables and a function between them. -/
def tokenNode : Document :=
  contractNode 2 "Token" [2, 1] [variableNode "minter" "t_address" "address" false,
    .record [("nodeType", .text "FunctionDefinition"), ("name", .text "mint")],
    variableNode "balances" "t_mapping$_t_address_$_t_uint256_$"
      "mapping(address => uint256)" false]

/-- The output for a source with both contracts. -/
def tokenOutput : Document :=
  .record [("sources", .record [("contracts/Token.sol",
    .record [("ast", .record [("nodes", .row [baseNode, tokenNode])])])])]

/-- The source reference of a node, as the compiler writes it. -/
def rawReference (node : Document) : Logged Document := liftM (node.member "src")

/-- The token keeps three variables, and their types agree. -/
theorem exists_keptVariables_tokenNode [NestingLimits] :
    ∃ vs, keptVariables tokenOutput tokenNode = .ok vs ∧ vs.length = 3 ∧ TypesAgree vs :=
  ⟨_, rfl, rfl, by decide, by decide⟩

/-- The three variables of the token keep their types. -/
theorem linearizedLayout_tokenNode :
    ∃ (l : Layout) (ds : List Declaration),
      (linearizedLayout tokenOutput tokenNode rawReference).result = .ok l
      ∧ ds.length = 3 ∧ l.items = ds.map Declaration.item
      ∧ ∀ d ∈ ds, l.typeLabel d.item = .ok (.text d.typeLabel) := by
  obtain ⟨l, h⟩ : ∃ l, (linearizedLayout tokenOutput tokenNode rawReference).result = .ok l :=
    ⟨_, rfl⟩
  obtain ⟨vs, ds, hvs, hds, hitems, htypes⟩ := linearizedLayout_keeps_types h
  obtain ⟨vs', hvs', hlen, hagree⟩ := exists_keptVariables_tokenNode
  obtain rfl := Except.ok.inj (hvs'.symm.trans hvs)
  exact ⟨l, ds, h, hds.length_eq.symm.trans hlen, hitems, htypes hagree⟩

end Compilation

end SlotSafe
