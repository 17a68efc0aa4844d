import SlotSafe.Compilation
import SlotSafe.Proofs.LineTables
import SlotSafe.Proofs.Renaming

/-!
# Layouts of renamed compilations

The layout of a contract is found in documents whose identities come from the reading of a file.
**Nothing but these identities changes in it when they are renamed** (`layout_rename`): the same
contract is found, or none for the same reason, its layout has the same items and types, and the
same events are reported on the way.

Each function of the extraction is carried along in turn. They are written as steps in a row, and
steps in a row carry a renaming along when each of them does (`bind_rename`), so a proof names, step
by step, the lemma of the function that is called there.
-/

namespace SlotSafe

variable {σ : Renaming} {α α' β β' : Type}

/-! ## Events -/

/-- What an event says, with other identities. -/
def LogValue.rename (σ : Renaming) : LogValue → LogValue
  | document d => document (d.rename σ)
  | count n => count n

/-- An event with other identities. -/
def LogEvent.rename (σ : Renaming) (e : LogEvent) : LogEvent :=
  { e with fields := e.fields.map fun field => (field.1, field.2.rename σ) }

namespace Logged

/-- A computation with other identities, in its events and by `r` in its result. -/
def rename (σ : Renaming) (r : α → β) (x : Logged α) : Logged β :=
  ⟨x.events.map (LogEvent.rename σ), x.result.map r⟩

theorem bind_rename {x : Logged α} {x' : Logged α'} {f : α → Logged β} {f' : α' → Logged β'}
    {r : α → α'} {s : β → β'} (hx : x' = x.rename σ r) (hf : ∀ a, f' (r a) = (f a).rename σ s) :
    (x' >>= f') = (x >>= f).rename σ s := by
  obtain ⟨events, result⟩ := x
  rw [hx]
  show bind _ f' = (bind _ f).rename σ s
  cases result with
  | error e => rfl
  | ok a =>
    show Logged.mk (_ ++ (f' (r a)).events) (f' (r a)).result = _
    rw [hf]
    simp only [rename, bind, List.map_append]

/-- A step that reports nothing. -/
theorem lift_rename {x : Except Fault α} {x' : Except Fault α'} {r : α → α'} (h : x' = x.map r) :
    (liftM x' : Logged α') = (liftM x : Logged α).rename σ r := by
  rw [h]
  rfl

/-- A step that reports nothing and whose result holds no identity. -/
theorem lift_rename_same {x x' : Except Fault α} (h : x' = x) :
    (liftM x' : Logged α) = (liftM x : Logged α).rename σ id := by
  rw [h]
  cases x <;> rfl

end Logged

namespace Document

theorem beq_text_rename (d : Document) (s : String) : (d.rename σ == text s) = (d == text s) :=
  beq_rename d (text s)

theorem ite_rename (c : Prop) [Decidable c] (d e : Document) :
    (if c then d.rename σ else e.rename σ) = (if c then d else e).rename σ := by
  split <;> rfl

end Document

open Document

/-! ## Variables -/

namespace Extraction

theorem isStorageVariable_rename (node : Document) :
    isStorageVariable (node.rename σ) = isStorageVariable node := by
  refine bind_rename_to_same (memberOrNull_rename node _) fun kind => ?_
  rw [beq_text_rename]
  split
  · refine bind_rename_to_same (memberOr_rename node _ (.bool false)) fun constant => ?_
    rw [isSet_rename]
    split
    · rfl
    · refine bind_rename_to_same (memberOrNull_rename node _) fun mutability => ?_
      rw [beq_text_rename, beq_text_rename]
  · rfl

variable [NestingLimits]

theorem readType_rename (node : Document) : readType (node.rename σ) = readType node := by
  refine bind_rename_to_same (memberOrNull_rename node _) fun given => ?_
  rw [isSet_rename, show Document.record [] = (Document.record []).rename σ from rfl, ite_rename]
  refine bind_rename_to_same (memberOrNull_rename _ _) fun identifier => ?_
  refine bind_rename_to_same (memberOrNull_rename _ _) fun written => ?_
  have hname : (do
      let name ← (node.rename σ).memberOr "name" (.text "?")
      let shown ← name.shown
      Except.error (Fault.malformed (.untypedVariable shown)) : Except Fault (String × String))
      = (do
      let name ← node.memberOr "name" (.text "?")
      let shown ← name.shown
      Except.error (Fault.malformed (.untypedVariable shown))) :=
    bind_rename_to_same (memberOr_rename node _ (.text "?")) fun name => by rw [shown_rename]
  cases identifier with
  | text identifier =>
    cases written with
    | text written => rfl
    | _ => exact hname
  | _ => exact hname

theorem readName_rename (contract node : Document) :
    readName (contract.rename σ) (node.rename σ) = readName contract node := by
  refine bind_rename_to_same (memberOrNull_rename node _) fun name => ?_
  refine bind_rename_to_same (memberOrNull_rename node _) fun src => ?_
  rw [shown_rename]
  cases name with
  | text name =>
    cases src with
    | text src => rfl
    | _ => rfl
  | _ => rfl

/-- A declaration with other identities. -/
def Declaration.rename (σ : Renaming) (d : Declaration) : Declaration :=
  { d with contract := d.contract.rename σ, src := d.src.rename σ }

variable {locate locate' : Document → Logged Document}
  (hlocate : ∀ node, locate' (node.rename σ) = (locate node).rename σ (Document.rename σ))
include hlocate

theorem declaration_rename (contract node : Document) :
    declaration locate' (contract.rename σ) (node.rename σ)
      = (declaration locate contract node).rename σ (Declaration.rename σ) := by
  refine Logged.bind_rename (Logged.lift_rename_same (readName_rename contract node)) fun name => ?_
  refine Logged.bind_rename (Logged.lift_rename_same (readType_rename node)) fun (_, _) => ?_
  exact Logged.bind_rename (hlocate node) fun src => rfl

theorem declarations_rename (contract : Document) (nodes : List Document) :
    declarations locate' (contract.rename σ) (nodes.map (Document.rename σ))
      = (declarations locate contract nodes).rename σ (List.map (Declaration.rename σ)) := by
  induction nodes with
  | nil => rfl
  | cons node rest ih =>
    refine Logged.bind_rename (Logged.lift_rename_same (isStorageVariable_rename node))
      fun kept => ?_
    cases kept with
    | false => exact ih
    | true =>
      refine Logged.bind_rename (declaration_rename hlocate contract node) fun first => ?_
      exact Logged.bind_rename ih fun others => rfl

end Extraction

/-! ## Layouts -/

/-- An item with other identities. -/
def Item.rename (σ : Renaming) (item : Item) : Item :=
  ⟨item.contract.rename σ, item.label.rename σ, item.type.rename σ, item.src.rename σ⟩

/-- A layout with other identities. -/
def Layout.rename (σ : Renaming) (l : Layout) : Layout where
  items := l.items.map (Item.rename σ)
  types := l.types.rename σ
  closed := by
    intro item hitem
    obtain ⟨item, hmem, rfl⟩ := List.mem_map.mp hitem
    exact (Table.contains_rename l.types item.type).trans (l.closed item hmem)

theorem Layout.ext_parts {l m : Layout} (hitems : l.items = m.items)
    (htypes : l.types = m.types) : l = m := by
  obtain ⟨items, types, hl⟩ := l
  obtain ⟨items', types', hm⟩ := m
  cases hitems
  cases htypes
  rfl

theorem Layout.concat_rename (layouts : List Layout) :
    Layout.concat (layouts.map (Layout.rename σ)) = (Layout.concat layouts).rename σ := by
  refine Layout.ext_parts ?_ ?_
  · show Layout.joinedItems _ = (Layout.joinedItems layouts).map _
    rw [Layout.joinedItems, Layout.joinedItems, List.flatMap_map, List.map_flatMap]
    rfl
  · show Layout.joinedTypes _ = (Layout.joinedTypes layouts).rename σ
    rw [Layout.joinedTypes, Layout.joinedTypes, ← Table.ofList_rename, List.flatMap_map,
      List.map_flatMap]
    rfl

namespace Extraction

theorem layoutOf_rename (ds : List Declaration) :
    layoutOf (ds.map (Declaration.rename σ)) = (layoutOf ds).rename σ := by
  refine Layout.ext_parts ?_ ?_
  · show (ds.map _).map Declaration.item = (ds.map Declaration.item).map _
    rw [List.map_map, List.map_map]
    rfl
  · show Table.ofList ((ds.map _).map Declaration.typeEntry) = (Table.ofList _).rename σ
    rw [← Table.ofList_rename, List.map_map, List.map_map]
    rfl

theorem layout_rename [NestingLimits] {locate locate' : Document → Logged Document}
    (hlocate : ∀ node, locate' (node.rename σ) = (locate node).rename σ (Document.rename σ))
    (definition : Document) :
    layout locate' (definition.rename σ) = (layout locate definition).rename σ (Layout.rename σ) := by
  refine Logged.bind_rename (Logged.lift_rename (member_rename definition _)) fun contract => ?_
  refine Logged.bind_rename (Logged.lift_rename (memberOr_rename definition _ (.row [])))
    fun given => ?_
  refine Logged.bind_rename (Logged.lift_rename (elements_rename given)) fun nodes => ?_
  refine Logged.bind_rename (declarations_rename hlocate contract nodes) fun ds => ?_
  rw [layoutOf_rename]
  refine Logged.bind_rename (r := id) ?_ fun _ => rfl
  simp [Logged.report, Logged.rename, LogEvent.rename, LogValue.rename, Layout.size, Layout.rename,
    Table.rename, Except.map]

end Extraction

/-! ## Sources -/

namespace Sources

/-- Sources with other identities. -/
def rename (σ : Renaming) (s : Sources) : Sources := ⟨s.paths.rename σ, s.contents.rename σ⟩

theorem enter_rename (paths : Table Document) (path source : Document) :
    enter (paths.rename σ) (path.rename σ) (source.rename σ)
      = (enter paths path source).map (Table.rename σ) := by
  refine bind_rename_of_same (mentions_rename source _) fun mentioned => ?_
  cases mentioned with
  | false => rfl
  | true =>
    refine bind_rename (member_rename source _) fun id => ?_
    rw [isKey_rename, Table.insert_rename]
    split <;> rfl

theorem enterAll_rename (paths : Table Document) (sources : List (Document × Document)) :
    enterAll (paths.rename σ) (sources.map (renameEntry σ))
      = (enterAll paths sources).map (Table.rename σ) := by
  induction sources generalizing paths with
  | nil => rfl
  | cons entry rest ih => exact bind_rename (enter_rename paths entry.1 entry.2) fun paths => ih paths

theorem ofCompilation_rename (input output : Document) :
    ofCompilation (input.rename σ) (output.rename σ)
      = (ofCompilation input output).map (rename σ) := by
  refine bind_rename (memberOr_rename output _ (.record [])) fun sources => ?_
  refine bind_rename (entries_rename sources) fun entries => ?_
  refine bind_rename (enterAll_rename .empty entries) fun paths => ?_
  exact bind_rename (memberOr_rename input _ (.record [])) fun contents => rfl

theorem content?_rename (s : Sources) (path : Document) :
    (s.rename σ).content? (path.rename σ) = s.content? path := by
  unfold content?
  rw [show (s.rename σ).contents = s.contents.rename σ from rfl, table?_rename]
  cases s.contents.table? with
  | none => rfl
  | some files =>
    refine bind_rename_to_same (x := .ok files) (r := Table.rename σ) rfl fun files => ?_
    have hsource : ((files.rename σ).find? (path.rename σ)).getD (.record [])
        = ((files.find? path).getD (.record [])).rename σ := by
      rw [Table.find?_rename]
      cases files.find? path <;> rfl
    simp only [hsource]
    refine bind_rename_to_same (memberOrNull_rename _ _) fun content => ?_
    cases content <;> rfl

theorem lines_rename (s : Sources) (path : Document) :
    (s.rename σ).lines (path.rename σ) = s.lines path :=
  bind_rename_to_same (r := id) (by rw [content?_rename]; cases s.content? path <;> rfl) fun _ => rfl

theorem placeIn_rename [NestingLimits] (path : Document) (lines : Option LineTable) (start : Int) :
    placeIn (path.rename σ) lines start = (placeIn path lines start).map (Document.rename σ) := by
  cases lines with
  | none => rfl
  | some lines => exact bind_rename_of_same (shown_rename path) fun shown => rfl

theorem place_rename [NestingLimits] (s : Sources) (path : Document) (start : Int) :
    (s.rename σ).place (path.rename σ) start = (s.place path start).map (Document.rename σ) :=
  bind_rename_of_same (lines_rename s path) fun lines => placeIn_rename path lines start

theorem ofDocument_rename (src : Document) :
    SourceReference.ofDocument (src.rename σ) = SourceReference.ofDocument src := by
  cases src <;> rfl

theorem referenceOf_rename (node : Document) :
    referenceOf (node.rename σ) = (referenceOf node).map (Prod.map (Document.rename σ) id) := by
  refine bind_rename (member_rename node _) fun src => ?_
  exact bind_rename_of_same (ofDocument_rename src) fun reference => rfl

theorem locate_rename [NestingLimits] (s : Sources) (node : Document) :
    (s.rename σ).locate (node.rename σ) = (s.locate node).rename σ (Document.rename σ) := by
  rw [locate_eq, locate_eq]
  refine Logged.bind_rename (Logged.lift_rename (referenceOf_rename node)) fun (src, reference) => ?_
  have hpath : (s.rename σ).paths.find? (.int reference.source)
      = (s.paths.find? (.int reference.source)).map (Document.rename σ) :=
    Table.find?_rename s.paths (.int reference.source)
  simp only [Prod.map, id, hpath]
  cases s.paths.find? (.int reference.source) with
  | none => exact Logged.bind_rename (r := id) rfl fun _ => rfl
  | some path => exact Logged.lift_rename (place_rename s path reference.start)

end Sources

/-! ## Compilations -/

namespace Compilation

theorem definitionsAmong_rename (path : Document) (nodes : List Document) :
    definitionsAmong (path.rename σ) (nodes.map (Document.rename σ))
      = (definitionsAmong path nodes).map (List.map (renameEntry σ)) := by
  induction nodes with
  | nil => rfl
  | cons node rest ih =>
    refine bind_rename (memberOrNull_rename node _) fun kind => ?_
    refine bind_rename ih fun others => ?_
    rw [beq_text_rename]
    split <;> rfl

theorem definitionsOf_rename (path source : Document) :
    definitionsOf (path.rename σ) (source.rename σ)
      = (definitionsOf path source).map (List.map (renameEntry σ)) := by
  refine bind_rename (memberOrNull_rename source _) fun given => ?_
  rw [isSet_rename, show Document.record [] = (Document.record []).rename σ from rfl, ite_rename]
  refine bind_rename (memberOr_rename _ _ (.row [])) fun nodes => ?_
  exact bind_rename (elements_rename nodes) fun nodes => definitionsAmong_rename path nodes

theorem definitionsIn_rename (sources : List (Document × Document)) :
    definitionsIn (sources.map (renameEntry σ))
      = (definitionsIn sources).map (List.map (renameEntry σ)) := by
  induction sources with
  | nil => rfl
  | cons entry rest ih =>
    refine bind_rename (definitionsOf_rename entry.1 entry.2) fun first => ?_
    refine bind_rename ih fun others => ?_
    exact congrArg Except.ok List.map_append.symm

theorem definitions_rename (output : Document) :
    definitions (output.rename σ) = (definitions output).map (List.map (renameEntry σ)) := by
  refine bind_rename (memberOr_rename output _ (.record [])) fun sources => ?_
  exact bind_rename (entries_rename sources) fun entries => definitionsIn_rename entries

/-- A query with other identities. -/
def Query.rename (σ : Renaming) (q : Query) : Query :=
  { q with asked := q.asked.rename σ, name := q.name.rename σ }

theorem admits_rename (q : Query) (path node : Document) :
    (q.rename σ).admits (path.rename σ) (node.rename σ) = q.admits path node := by
  refine bind_rename_to_same (memberOrNull_rename node _) fun name => ?_
  dsimp only [Query.rename]
  rw [beq_rename]
  cases q.path with
  | none => rfl
  | some p => exact congrArg (fun b => Except.ok (_ && b)) (beq_text_rename path p)

theorem answers_rename (q : Query) (defs : List (Document × Document)) :
    answers (q.rename σ) (defs.map (renameEntry σ))
      = (answers q defs).map (List.map (renameEntry σ)) := by
  induction defs with
  | nil => rfl
  | cons found rest ih =>
    refine bind_rename_of_same (admits_rename q found.1 found.2) fun here => ?_
    refine bind_rename ih fun others => ?_
    split <;> rfl

theorem candidate_rename [NestingLimits] (q : Query) (found : Document × Document) :
    candidate (q.rename σ) (renameEntry σ found) = candidate q found := by
  unfold candidate
  rw [renameEntry, shown_rename, show (q.rename σ).name = q.name.rename σ from rfl, shown_rename]

theorem candidates_rename [NestingLimits] (q : Query) (defs : List (Document × Document)) :
    candidates (q.rename σ) (defs.map (renameEntry σ)) = candidates q defs := by
  induction defs with
  | nil => rfl
  | cons found rest ih => rw [List.map_cons, candidates, candidates, candidate_rename, ih]

theorem find_rename [NestingLimits] (output : Document) (q : Query) :
    find (output.rename σ) (q.rename σ) = (find output q).map (renameEntry σ) := by
  refine bind_rename (definitions_rename output) fun defs => ?_
  refine bind_rename (answers_rename q defs) fun found => ?_
  match found with
  | [] => exact bind_rename_of_same (shown_rename q.asked) fun shown => rfl
  | [only] => rfl
  | first :: second :: rest =>
    refine bind_rename_of_same (candidates_rename q (first :: second :: rest)) fun several => ?_
    exact bind_rename_of_same (shown_rename q.asked) fun shown => rfl

theorem findContract_rename [NestingLimits] (output : Document) (q : Query) :
    findContract (output.rename σ) (q.rename σ)
      = (findContract output q).rename σ (Document.rename σ) := by
  refine Logged.bind_rename (Logged.lift_rename (find_rename output q)) fun (path, node) => ?_
  exact Logged.bind_rename (r := id) rfl fun _ => rfl

theorem enterById_rename (known : Table Document) (defs : List (Document × Document)) :
    enterById (known.rename σ) (defs.map (renameEntry σ))
      = (enterById known defs).map (Table.rename σ) := by
  induction defs generalizing known with
  | nil => rfl
  | cons found rest ih =>
    refine bind_rename_of_same (mentions_rename found.2 _) fun mentioned => ?_
    cases mentioned with
    | false => exact ih known
    | true =>
      refine bind_rename (member_rename found.2 _) fun id => ?_
      rw [isKey_rename]
      split
      · exact (congrArg (enterById · _) (Table.insert_rename known id found.2)).trans (ih _)
      · rfl

theorem definitionsById_rename (output : Document) :
    definitionsById (output.rename σ) = (definitionsById output).map (Table.rename σ) :=
  bind_rename (definitions_rename output) fun defs => enterById_rename .empty defs

theorem baseIds_rename (definition : Document) :
    baseIds (definition.rename σ) = (baseIds definition).map (List.map (Document.rename σ)) := by
  refine bind_rename (memberOrNull_rename definition _) fun given => ?_
  rw [isSet_rename]
  split
  · exact backwards_rename given
  · exact bind_rename (member_rename definition _) fun id => rfl

variable [NestingLimits]

theorem base_rename (known : Table Document) (definition id : Document) :
    base (known.rename σ) (definition.rename σ) (id.rename σ)
      = (base known definition id).map (Document.rename σ) := by
  refine bind_rename (memberOrNull_rename definition _) fun own => ?_
  rw [beq_rename]
  split
  · rfl
  · refine bind_rename (lookUp_rename known id) fun found => ?_
    cases found with
    | some found => rfl
    | none =>
      refine bind_rename_of_same (shown_rename id) fun missing => ?_
      refine bind_rename (member_rename definition _) fun name => ?_
      exact bind_rename_of_same (shown_rename name) fun shown => rfl

variable {locate locate' : Document → Logged Document}
  (hlocate : ∀ node, locate' (node.rename σ) = (locate node).rename σ (Document.rename σ))
include hlocate

theorem baseLayouts_rename (known : Table Document) (definition : Document) (ids : List Document) :
    baseLayouts locate' (known.rename σ) (definition.rename σ) (ids.map (Document.rename σ))
      = (baseLayouts locate known definition ids).rename σ (List.map (Layout.rename σ)) := by
  induction ids with
  | nil => rfl
  | cons id rest ih =>
    refine Logged.bind_rename (Logged.lift_rename (base_rename known definition id)) fun found => ?_
    refine Logged.bind_rename (Extraction.layout_rename hlocate found) fun first => ?_
    exact Logged.bind_rename ih fun others => rfl

theorem linearizedLayout_rename (output definition : Document) :
    linearizedLayout (output.rename σ) (definition.rename σ) locate'
      = (linearizedLayout output definition locate).rename σ (Layout.rename σ) := by
  refine Logged.bind_rename (Logged.lift_rename (definitionsById_rename output)) fun known => ?_
  refine Logged.bind_rename (Logged.lift_rename (baseIds_rename definition)) fun ids => ?_
  refine Logged.bind_rename (baseLayouts_rename hlocate known definition ids) fun layouts => ?_
  rw [Layout.concat_rename]
  rfl

omit hlocate in
/-- **The layout of a contract in a renamed compilation** is the one in the original compilation,
renamed, and so are the events on the way to it. -/
theorem layout_rename (input output : Document) (q : Query) :
    layout (input.rename σ) (output.rename σ) (q.rename σ)
      = (layout input output q).rename σ (Layout.rename σ) := by
  refine Logged.bind_rename (findContract_rename output q) fun definition => ?_
  refine Logged.bind_rename (Logged.lift_rename (Sources.ofCompilation_rename input output))
    fun sources => ?_
  refine Logged.bind_rename (linearizedLayout_rename (Sources.locate_rename sources) output
    definition) fun found => ?_
  refine Logged.bind_rename (r := id) ?_ fun _ => rfl
  simp [Logged.report, Logged.rename, LogEvent.rename, LogValue.rename, Layout.size, Layout.rename,
    Query.rename, Except.map]

end Compilation

end SlotSafe
