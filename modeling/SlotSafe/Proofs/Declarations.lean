import SlotSafe.Compilation
import SlotSafe.Proofs.Success

/-!
# What the declarations of a layout say

The variables of a contract are found in its syntax tree by looking into documents of which nothing
is assumed, and each look may fail. A successful extraction tells what was there. A node is kept for
what stands under three of its members (`isKept`), and the declaration made of it says what the node
says of the name and the type, and nothing else (`Declares`). So **an extracted layout is that of
the declarations of the kept variables**, one for each and in their order (`exists_declarations`).
-/

namespace SlotSafe

namespace Document

/-- The member of a map under a name. -/
def at? (d : Document) (name : String) : Option Document :=
  d.table?.bind fun table => table.find? (.text name)

/-- The text to which a path of names leads. -/
def textAt (d : Document) : List String → Option String
  | [] => d.text?
  | name :: path => (d.at? name).bind fun member => member.textAt path

theorem text?_eq_some_iff {d : Document} {s : String} : d.text? = some s ↔ d = .text s := by
  cases d <;> simp [text?]

theorem exists_text_of_isText {d : Document} (h : d.isText = true) : ∃ s, d = .text s := by
  cases d with
  | text s => exact ⟨s, rfl⟩
  | _ => cases h

/-- **A text is compared with anything**, under all limits. -/
theorem comparesWithin_of_isText [NestingLimits] {d : Document} (h : d.isText = true)
    (other : Document) : comparesWithin NestingLimits.comparing d other = true := by
  obtain ⟨s, rfl⟩ := exists_text_of_isText h
  obtain ⟨depth, hdepth⟩ := Nat.exists_eq_add_of_le NestingLimits.eight_le_comparing
  rw [hdepth, Nat.add_comm]
  rfl

theorem key?_eq_text_iff {d : Document} {s : String} : d.key? = some (.text s) ↔ d = .text s := by
  cases d with
  | float x =>
    simp only [key?, numberKey?, reduceCtorEq, iff_false]
    split
    · simp
    · split <;> simp
  | moment id m =>
    simp only [key?, momentKey, reduceCtorEq, iff_false]
    split <;> simp
  | pair a b =>
    simp only [key?, reduceCtorEq, iff_false]
    split <;> simp
  | _ => simp [key?]

theorem sameKey_text_iff {d : Document} {s : String} :
    d.sameKey (.text s) = true ↔ d = .text s := by
  rw [Table.sameKey_iff]
  constructor
  · rintro ⟨k, hk, h⟩
    obtain rfl := Option.some.inj h
    exact key?_eq_text_iff.mp hk
  · rintro rfl
    exact ⟨.text s, rfl, rfl⟩

/-- A document equals a text or an integer when it is found by it. -/
theorem beq_eq_sameKey (d : Document) {k : Document}
    (hk : (∃ s, k = .text s) ∨ ∃ n, k = .int n) : (d == k) = d.sameKey k := by
  change d.equal k = _
  obtain ⟨s, rfl⟩ | ⟨n, rfl⟩ := hk
  all_goals
    cases d with
    | pair a b => cases ha : a.key? <;> cases hb : b.key? <;> simp [equal, sameKey, key?, ha, hb]
    | list id items => cases id <;> simp [equal, is, identity?, sameKey, key?]
    | map id entries => cases id <;> simp [equal, is, identity?, sameKey, key?]
    | knot id body => simp [equal, is, identity?, sameKey, key?]
    | nan id => simp [equal, sameKey, key?]
    | set id members => simp [equal, sameKey, key?]
    | _ => rfl

/-- A document that equals a text is that text. -/
theorem beq_text_iff {d : Document} {s : String} : (d == .text s) = true ↔ d = .text s := by
  rw [beq_eq_sameKey d (Or.inl ⟨s, rfl⟩), sameKey_text_iff]

/-- Asking a map for a member gives the member, or what takes its place. -/
theorem memberOr_of_isSome {d : Document} (h : d.table?.isSome = true) (name : String)
    (absent : Document) : d.memberOr name absent = .ok ((d.at? name).getD absent) := by
  obtain ⟨table, htable⟩ := Option.isSome_iff_exists.mp h
  rw [memberOr, member?, at?, htable]
  rfl

/-- Only a map is asked for a member with success. -/
theorem isSome_of_memberOr {d v absent : Document} {name : String}
    (h : d.memberOr name absent = .ok v) : d.table?.isSome = true := by
  unfold memberOr member? at h
  cases htable : d.table? with
  | none => simp [htable, Except.map] at h
  | some table => rfl

theorem memberOr_eq_ok_iff {d v absent : Document} {name : String} :
    d.memberOr name absent = .ok v ↔ d.table?.isSome = true ∧ (d.at? name).getD absent = v := by
  constructor
  · intro h
    have hmap := isSome_of_memberOr h
    rw [memberOr_of_isSome hmap] at h
    exact ⟨hmap, Except.ok.inj h⟩
  · rintro ⟨hmap, rfl⟩
    exact memberOr_of_isSome hmap name absent

theorem member_eq_ok_iff {d v : Document} {name : String} :
    d.member name = .ok v ↔ d.at? name = some v := by
  unfold member at?
  cases d.table? with
  | none => simp
  | some table => cases h : table.find? (.text name) <;> simp [h]

theorem beq_text_eq_text? (d : Document) (s : String) : (d == .text s) = (d.text? == some s) := by
  rw [Bool.eq_iff_iff, beq_text_iff, beq_iff_eq, text?_eq_some_iff]

theorem textAt_singleton (d : Document) (name : String) :
    d.textAt [name] = ((d.at? name).getD .null).text? := by
  cases h : d.at? name with
  | none => simp [textAt, h, text?]
  | some member => simp [textAt, h]

/-- A text under a name is the member under it. -/
theorem at?_of_textAt {d : Document} {name s : String} (h : d.textAt [name] = some s) :
    d.at? name = some (.text s) := by
  obtain ⟨member, hmember, hs⟩ := Option.bind_eq_some_iff.mp h
  rw [hmember, text?_eq_some_iff.mp hs]

/-- What says nothing has no members. -/
theorem at?_of_not_isSet {d : Document} (h : d.isSet = false) (name : String) :
    d.at? name = none := by
  cases d with
  | map id entries =>
    obtain rfl : entries = [] := by simpa [isSet] using h
    rfl
  | knot id body => exact absurd h (by simp [isSet])
  | _ => rfl

/-- What does not mention a name has no member under it. -/
theorem at?_of_mentions {d : Document} {name : String} (h : d.mentions name = .ok false) :
    d.at? name = none := by
  unfold mentions at h
  unfold at? table?
  cases hd : d.unrolled with
  | map id entries =>
    rw [hd] at h
    have hcontains : (Table.mk entries).contains (.text name) = false := Except.ok.inj h
    rw [Table.contains_eq_isSome_find?] at hcontains
    exact Option.not_isSome_iff_eq_none.mp (ne_true_of_eq_false hcontains)
  | _ => rfl

theorem isSome_table?_of_at? {d v : Document} {name : String} (h : d.at? name = some v) :
    d.table?.isSome = true := by
  obtain ⟨table, htable, -⟩ := Option.bind_eq_some_iff.mp h
  rw [htable]
  rfl

theorem memberOrNull_of_at? {d v : Document} {name : String} (h : d.at? name = some v) :
    d.memberOrNull name = .ok v := by
  rw [memberOrNull, memberOr_of_isSome (isSome_table?_of_at? h), h]
  rfl

theorem lookUp_eq_ok_iff {β : Type} {t : Table β} {k : Document} {found : Option β} :
    lookUp t k = .ok found ↔ k.isKey = true ∧ t.find? k = found := by
  unfold lookUp
  cases k.isKey <;> simp

end Document

namespace Extraction

/-- Whether a node declares a variable that is kept in storage: neither a constant nor an immutable,
which become part of the code. -/
def isKept (node : Document) : Bool :=
  node.textAt ["nodeType"] == some "VariableDeclaration"
    && !((node.at? "constant").getD (.bool false)).isSet
    && !(node.textAt ["mutability"] == some "constant"
      || node.textAt ["mutability"] == some "immutable")

theorem isStorageVariable_of_isSome {node : Document} (h : node.table?.isSome = true) :
    isStorageVariable node = .ok (isKept node) := by
  unfold isStorageVariable Document.memberOrNull isKept
  rw [Document.memberOr_of_isSome h, Document.memberOr_of_isSome h, Document.memberOr_of_isSome h,
    Document.textAt_singleton, Document.textAt_singleton, ← Document.beq_text_eq_text?,
    ← Document.beq_text_eq_text?, ← Document.beq_text_eq_text?]
  simp only [bind, Except.bind]
  cases (node.at? "nodeType").getD .null == .text "VariableDeclaration" with
  | false => rfl
  | true => cases ((node.at? "constant").getD (.bool false)).isSet <;> rfl

theorem isStorageVariable_eq_ok {node : Document} {kept : Bool}
    (h : isStorageVariable node = .ok kept) : kept = isKept node := by
  obtain ⟨kind, hkind, -⟩ := bind_eq_ok_iff.mp h
  rw [isStorageVariable_of_isSome (Document.isSome_of_memberOr hkind)] at h
  exact (Except.ok.inj h).symm

/-- The type identifier of a variable. -/
def typeIdentifier? (node : Document) : Option String :=
  node.textAt ["typeDescriptions", "typeIdentifier"]

/-- The type of a variable as the compiler writes it. -/
def typeString? (node : Document) : Option String :=
  node.textAt ["typeDescriptions", "typeString"]

theorem readName_eq_ok [NestingLimits] {contract node : Document} {name : String}
    (h : readName contract node = .ok name) : node.textAt ["name"] = some name := by
  obtain ⟨given, hgiven, h⟩ := bind_eq_ok_iff.mp h
  obtain ⟨src, -, h⟩ := bind_eq_ok_iff.mp h
  obtain ⟨-, rfl⟩ := Document.memberOr_eq_ok_iff.mp hgiven
  rw [Document.textAt_singleton]
  split at h
  · next s hs hname =>
    rw [hname]
    exact congrArg some (Except.ok.inj h)
  · obtain ⟨shown, -, h⟩ := bind_eq_ok_iff.mp h
    exact absurd h (by simp)

/-- The descriptions of a variable's type, where an empty map stands in for none, hold what the node
holds of them. -/
theorem textAt_descriptions {node descriptions : Document}
    (h : node.memberOrNull "typeDescriptions" = .ok descriptions) (name : String) :
    (if descriptions.isSet then descriptions else .record []).textAt [name]
      = node.textAt ["typeDescriptions", name] := by
  obtain ⟨-, rfl⟩ := Document.memberOr_eq_ok_iff.mp h
  have hempty : (Document.record []).textAt [name] = none := rfl
  change _ = (node.at? "typeDescriptions").bind (fun d => d.textAt [name])
  cases node.at? "typeDescriptions" with
  | none => exact hempty
  | some d =>
    by_cases hset : d.isSet = true
    · exact congrArg (fun d : Document => d.textAt [name]) (if_pos hset)
    · have hnone : d.textAt [name] = none := by
        rw [Document.textAt, Document.at?_of_not_isSet (eq_false_of_ne_true hset), Option.bind_none]
      exact (congrArg (fun d : Document => d.textAt [name]) (if_neg hset)).trans
        (hempty.trans hnone.symm)

variable [NestingLimits]

theorem readType_eq_ok {node : Document} {identifier written : String}
    (h : readType node = .ok (identifier, written)) :
    typeIdentifier? node = some identifier ∧ typeString? node = some written := by
  obtain ⟨given, hgiven, h⟩ := bind_eq_ok_iff.mp h
  obtain ⟨found, hfound, h⟩ := bind_eq_ok_iff.mp h
  obtain ⟨found', hfound', h⟩ := bind_eq_ok_iff.mp h
  obtain ⟨-, rfl⟩ := Document.memberOr_eq_ok_iff.mp hfound
  obtain ⟨-, rfl⟩ := Document.memberOr_eq_ok_iff.mp hfound'
  rw [typeIdentifier?, typeString?, ← textAt_descriptions hgiven, ← textAt_descriptions hgiven,
    Document.textAt_singleton, Document.textAt_singleton]
  split at h
  · next s t hs ht =>
    rw [hs, ht]
    obtain ⟨rfl, rfl⟩ := Prod.mk.inj (Except.ok.inj h)
    exact ⟨rfl, rfl⟩
  · obtain ⟨name, -, h⟩ := bind_eq_ok_iff.mp h
    obtain ⟨shown, -, h⟩ := bind_eq_ok_iff.mp h
    exact absurd h (by simp)

/-- The nodes of a contract definition that declare its kept variables, in order. -/
def keptNodes (definition : Document) : Except Fault (List Document) := do
  let nodes ← (← definition.memberOr "nodes" (.row [])).elements
  .ok (nodes.filter isKept)

/-- **A declaration records what the node of a variable says**, of the contract definition that it
stands in. -/
structure Declares (locate : Document → Logged Document) (v : Document × Document)
    (d : Declaration) : Prop where
  contract : v.1.member "name" = .ok d.contract
  name : v.2.textAt ["name"] = some d.name
  typeKey : (typeIdentifier? v.2).map TypeKey.decode = some d.typeKey
  typeLabel : typeString? v.2 = some d.typeLabel
  src : (locate v.2).result = .ok d.src

variable {locate : Document → Logged Document}

theorem declares_of_declaration {definition node contract : Document} {d : Declaration}
    (hcontract : definition.member "name" = .ok contract)
    (h : (declaration locate contract node).result = .ok d) :
    Declares locate (definition, node) d := by
  obtain ⟨name, hname, h⟩ := Logged.result_bind_eq_ok_iff.mp h
  obtain ⟨⟨identifier, written⟩, htype, h⟩ := Logged.result_bind_eq_ok_iff.mp h
  obtain ⟨src, hsrc, h⟩ := Logged.result_bind_eq_ok_iff.mp h
  obtain rfl := Except.ok.inj h
  obtain ⟨hidentifier, hwritten⟩ := readType_eq_ok htype
  exact ⟨hcontract, readName_eq_ok hname, by rw [hidentifier]; rfl, hwritten, hsrc⟩

theorem declares_of_declarations {definition contract : Document} {nodes : List Document}
    {ds : List Declaration} (hcontract : definition.member "name" = .ok contract)
    (h : (declarations locate contract nodes).result = .ok ds) :
    List.Forall₂ (fun node d => Declares locate (definition, node) d) (nodes.filter isKept) ds := by
  induction nodes generalizing ds with
  | nil =>
    obtain rfl := Except.ok.inj h
    exact .nil
  | cons node rest ih =>
    obtain ⟨kept, hkept, h⟩ := Logged.result_bind_eq_ok_iff.mp h
    obtain rfl := isStorageVariable_eq_ok hkept
    cases hnode : isKept node with
    | false =>
      rw [hnode] at h
      rw [List.filter_cons_of_neg (by simp [hnode])]
      exact ih h
    | true =>
      rw [hnode] at h
      obtain ⟨first, hfirst, h⟩ := Logged.result_bind_eq_ok_iff.mp h
      obtain ⟨others, hothers, h⟩ := Logged.result_bind_eq_ok_iff.mp h
      obtain rfl := Except.ok.inj h
      rw [List.filter_cons_of_pos hnode]
      exact .cons (declares_of_declaration hcontract hfirst) (ih hothers)

/-- **An extracted layout is that of the declarations of the kept variables.** -/
theorem exists_declarations {definition : Document} {l : Layout}
    (h : (layout locate definition).result = .ok l) :
    ∃ nodes ds, keptNodes definition = .ok nodes
      ∧ List.Forall₂ (fun node d => Declares locate (definition, node) d) nodes ds
      ∧ l = layoutOf ds := by
  obtain ⟨contract, hcontract, h⟩ := Logged.result_bind_eq_ok_iff.mp h
  obtain ⟨given, hgiven, h⟩ := Logged.result_bind_eq_ok_iff.mp h
  obtain ⟨nodes, hnodes, h⟩ := Logged.result_bind_eq_ok_iff.mp h
  obtain ⟨ds, hds, h⟩ := Logged.result_bind_eq_ok_iff.mp h
  obtain ⟨-, -, h⟩ := Logged.result_bind_eq_ok_iff.mp h
  refine ⟨nodes.filter isKept, ds, ?_, declares_of_declarations hcontract hds,
    (Except.ok.inj h).symm⟩
  exact bind_eq_ok_iff.mpr ⟨given, hgiven, bind_eq_ok_iff.mpr ⟨nodes, hnodes, rfl⟩⟩

end Extraction

end SlotSafe
