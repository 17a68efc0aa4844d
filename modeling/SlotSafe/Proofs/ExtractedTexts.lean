import SlotSafe.Proofs.Inheritance
import SlotSafe.Proofs.LineTables
import SlotSafe.Proofs.Nesting
import SlotSafe.Proofs.Snapshots

/-!
# What is extracted from JSON

In a compilation that comes from JSON the paths of sources are texts, because the keys of a map are.
What else is extracted is a text too, but for the names of contracts, which are whatever the
definitions hold. So **a layout holds names of a kind if the definitions do, and texts besides, and
every event on the way to it says nothing else** (`Compilation.layout_tells`). In particular, where
contracts are named by texts, the layout is one of texts and can be saved, and every event can be
shown (`Compilation.layout_yields`).

Both follow the documents on their way: a place is a path or a text (`Sources.locate_tells`), and a
base is one of the definitions in the output (`mem_of_base`).
-/

namespace SlotSafe

/-! ## What events say -/

/-- What an event says if it is a document of a kind, or a number of things. -/
def LogValue.Says (N : Document → Prop) : LogValue → Prop
  | document d => N d
  | count _ => True

instance {N : Document → Prop} [DecidablePred N] : DecidablePred (LogValue.Says N)
  | .document d => inferInstanceAs (Decidable (N d))
  | .count _ => inferInstanceAs (Decidable True)

theorem LogValue.Says.mono {N N' : Document → Prop} {v : LogValue} (h : v.Says N)
    (hN : ∀ d, N d → N' d) : v.Says N' := by
  cases v with
  | document d => exact hN d h
  | count n => exact trivial

theorem LogValue.Says.and {N N' : Document → Prop} {v : LogValue} (h : v.Says N) (h' : v.Says N') :
    v.Says fun d => N d ∧ N' d := by
  cases v with
  | document d => exact ⟨h, h'⟩
  | count n => exact trivial

/-- **Something that can be shown in an event**, in whatever form: a text or a number of things. -/
def LogValue.IsPlain : LogValue → Prop := Says fun d => d.isText = true

namespace Logged

variable {α β : Type}

/-- **A computation that reports plain events only**. -/
def IsPlain (x : Logged α) : Prop := ∀ e ∈ x.events, ∀ field ∈ e.fields, field.2.IsPlain

/-- **A computation that reports plain events and succeeds with nothing but what `P` says.** -/
def Yields (P : α → Prop) (x : Logged α) : Prop := x.IsPlain ∧ ∀ a, x.result = .ok a → P a

/-- **A computation that tells of nothing but numbers and documents of a kind**, which may depend on
the level of the event, and succeeds with nothing but what `P` says. -/
structure Tells (N : LogLevel → Document → Prop) (P : α → Prop) (x : Logged α) : Prop where
  events : ∀ e ∈ x.events, ∀ field ∈ e.fields, field.2.Says (N e.level)
  result : ∀ a, x.result = .ok a → P a

variable {N : LogLevel → Document → Prop} {P : α → Prop} {Q : β → Prop}

theorem tells_pure {a : α} (h : P a) : (pure a : Logged α).Tells N P :=
  ⟨List.forall_mem_nil _, fun _ ha => Except.ok.inj ha ▸ h⟩

/-- A step that reports nothing. -/
theorem tells_lift {x : Except Fault α} (h : ∀ a, x = .ok a → P a) :
    (liftM x : Logged α).Tells N P :=
  ⟨List.forall_mem_nil _, h⟩

theorem tells_report {level : LogLevel} {component : Component} {event : String}
    {fields : List (String × LogValue)} (h : ∀ field ∈ fields, field.2.Says (N level)) :
    (report level component event fields).Tells N fun _ => True :=
  ⟨List.forall_mem_singleton.mpr h, fun _ _ => trivial⟩

/-- **Steps in a row** tell what each of them does, and succeed as the last one. -/
theorem tells_bind {x : Logged α} {f : α → Logged β} (hx : x.Tells N P)
    (hf : ∀ a, P a → (f a).Tells N Q) : (x >>= f).Tells N Q := by
  obtain ⟨events, result⟩ := x
  obtain ⟨hevents, hresult⟩ := hx
  show (bind _ f).Tells N Q
  cases result with
  | error fault => exact ⟨hevents, fun _ h => by cases h⟩
  | ok a =>
    obtain ⟨hothers, hf⟩ := hf a (hresult a rfl)
    exact ⟨List.forall_mem_append.mpr ⟨hevents, hothers⟩, hf⟩

/-- A first step that reports nothing. -/
theorem tells_bind_lift {x : Except Fault α} {f : α → Logged β}
    (hf : ∀ a, x = .ok a → (f a).Tells N Q) : ((liftM x : Logged α) >>= f).Tells N Q :=
  tells_bind (tells_lift fun _ h => h) hf

/-- What tells of nothing but texts reports plain events. -/
theorem Tells.yields {x : Logged α} (h : x.Tells (fun _ d => d.isText = true) P) :
    x.Yields P :=
  ⟨h.events, h.result⟩

end Logged

/-- A kind of documents that texts are of. -/
def HoldsTexts (N : Document → Prop) : Prop := ∀ s : String, N (.text s)

theorem HoldsTexts.of_isText {N : Document → Prop} (hN : HoldsTexts N) {d : Document}
    (h : d.isText = true) : N d := by
  obtain ⟨s, rfl⟩ := Document.exists_text_of_isText h
  exact hN s

/-! ## Places -/

namespace Sources

variable {s : Sources} {N : LogLevel → Document → Prop}

theorem isText_of_enterAll {paths t : Table Document} {sources : List (Document × Document)}
    (hpaths : ∀ entry ∈ paths.entries, entry.2.isText = true)
    (hsources : ∀ entry ∈ sources, entry.1.isText = true)
    (h : enterAll paths sources = .ok t) : ∀ entry ∈ t.entries, entry.2.isText = true := by
  induction sources generalizing paths with
  | nil =>
    cases h
    exact hpaths
  | cons source rest ih =>
    rw [List.forall_mem_cons] at hsources
    obtain ⟨entered, hentered, h⟩ := bind_eq_ok_iff.mp h
    refine ih (fun entry hentry => ?_) hsources.2 h
    obtain ⟨mentioned, -, hentered⟩ := bind_eq_ok_iff.mp hentered
    cases mentioned with
    | false =>
      cases hentered
      exact hpaths entry hentry
    | true =>
      obtain ⟨id, -, hentered⟩ := bind_eq_ok_iff.mp hentered
      split at hentered
      · cases hentered
        obtain hmem | ⟨hvalue, -⟩ := Table.mem_insert hentry
        · exact hpaths entry hmem
        · exact hvalue ▸ hsources.1
      · cases hentered

/-- **The paths of sources are texts** in an output that comes from JSON. -/
theorem isText_of_ofCompilation {input output : Document} (houtput : output.IsJson)
    (h : ofCompilation input output = .ok s) : ∀ entry ∈ s.paths.entries, entry.2.isText = true := by
  obtain ⟨sources, hsources, h⟩ := bind_eq_ok_iff.mp h
  obtain ⟨entries, hentries, h⟩ := bind_eq_ok_iff.mp h
  obtain ⟨paths, hpaths, h⟩ := bind_eq_ok_iff.mp h
  obtain ⟨contents, -, h⟩ := bind_eq_ok_iff.mp h
  cases h
  exact isText_of_enterAll (List.forall_mem_nil _)
    ((houtput.of_memberOr Document.isJson_record_nil hsources).isText_of_entries hentries) hpaths

theorem isText_of_placeIn [NestingLimits] {path src : Document} {lines : Option LineTable}
    {start : Int} (hpath : path.isText = true) (h : placeIn path lines start = .ok src) :
    src.isText = true := by
  cases lines with
  | none =>
    cases h
    exact hpath
  | some lines =>
    obtain ⟨shown, -, h⟩ := bind_eq_ok_iff.mp h
    cases h
    rfl

theorem isText_of_place [NestingLimits] {path src : Document} {start : Int}
    (hpath : path.isText = true) (h : s.place path start = .ok src) : src.isText = true := by
  obtain ⟨lines, -, h⟩ := bind_eq_ok_iff.mp h
  exact isText_of_placeIn hpath h

theorem isText_of_referenceOf {node src : Document} {reference : SourceReference}
    (h : referenceOf node = .ok (src, reference)) : src.isText = true := by
  obtain ⟨written, -, h⟩ := bind_eq_ok_iff.mp h
  obtain ⟨read, hread, h⟩ := bind_eq_ok_iff.mp h
  cases h
  cases src with
  | text s => rfl
  | _ => cases hread

/-- **A place is a text**, and so is what is told of it. -/
theorem locate_tells [NestingLimits] (hN : HoldsTexts (N .debug))
    (hs : ∀ entry ∈ s.paths.entries, entry.2.isText = true) (node : Document) :
    (s.locate node).Tells N fun src => src.isText = true := by
  rw [locate_eq]
  refine Logged.tells_bind_lift fun (src, reference) hreference => ?_
  dsimp only
  cases hpath : s.paths.find? (.int reference.source) with
  | none =>
    have hsrc := hN.of_isText (isText_of_referenceOf hreference)
    exact Logged.tells_bind (Logged.tells_report (List.forall_mem_singleton.mpr hsrc))
      fun _ _ => Logged.tells_pure rfl
  | some path =>
    obtain ⟨entry, hentry, -, rfl⟩ := Table.exists_of_find? hpath
    exact Logged.tells_lift fun src h => isText_of_place (hs entry hentry) h

end Sources

/-! ## Layouts -/

namespace Layout

/-- What is collected in a table under texts stands under texts there. -/
theorem of_mem_ofList {P : Document → Prop} {entries : List (Document × Document)}
    (h : ∀ entry ∈ entries, entry.1.isText = true ∧ P entry.2) :
    ∀ entry ∈ (Table.ofList entries).entries, entry.1.isText = true ∧ P entry.2 := by
  intro entry hentry
  obtain ⟨origin, horigin, hvalue, hkey⟩ := Table.exists_of_mem_ofList hentry
  obtain ⟨hname, hlabel⟩ := h origin horigin
  obtain ⟨name, htext⟩ := Document.exists_text_of_isText hname
  -- the key in the table may be that of an earlier entry, but what is the same key as a text is one
  have hsame : entry.1.sameKey (.text name) = true := by
    refine Table.sameKey_symm ((hkey (.text name)).trans ?_)
    rw [htext, Document.sameKey_text, beq_self_eq_true]
  rw [Document.sameKey_text_iff] at hsame
  exact ⟨by rw [hsame]; rfl, hvalue ▸ hlabel⟩

/-- **A layout whose contracts have names of a kind**, and that holds texts besides. -/
structure Named (N : Document → Prop) (l : Layout) : Prop where
  contracts : ∀ item ∈ l.items, N item.contract
  items : ∀ item ∈ l.items, ∀ field ∈ [item.label, item.type, item.src], field.isText = true
  types : ∀ entry ∈ l.types.entries, entry.1.isText = true ∧ entry.2.isText = true
  distinct : Table.DistinctKeys l.types.keys

theorem Named.ofTexts {l : Layout} (h : l.Named fun d => d.isText = true) : l.OfTexts where
  items item hitem := List.forall_mem_cons.mpr ⟨h.contracts item hitem, h.items item hitem⟩
  types := h.types
  distinct := h.distinct

variable {N : Document → Prop}

/-- **Layouts with names of a kind are joined to one with such names.** -/
theorem named_concat {layouts : List Layout} (h : ∀ l ∈ layouts, l.Named N) :
    (concat layouts).Named N where
  contracts item hitem := by
    obtain ⟨l, hl, hmem⟩ := List.mem_flatMap.mp hitem
    exact (h l hl).contracts item hmem
  items item hitem := by
    obtain ⟨l, hl, hmem⟩ := List.mem_flatMap.mp hitem
    exact (h l hl).items item hmem
  types := by
    refine of_mem_ofList (P := fun label => label.isText = true) fun entry hentry => ?_
    obtain ⟨l, hl, hmem⟩ := List.mem_flatMap.mp hentry
    exact (h l hl).types entry hmem
  distinct := Table.distinctKeys_ofList _

end Layout

namespace Extraction

/-- **A declaration in a contract with a name of a kind**: its place is a text. The rest always
is. -/
structure Declaration.Named (N : Document → Prop) (d : Declaration) : Prop where
  contract : N d.contract
  src : d.src.isText = true

theorem named_layoutOf {N : Document → Prop} {ds : List Declaration} (h : ∀ d ∈ ds, d.Named N) :
    (layoutOf ds).Named N where
  contracts item hitem := by
    obtain ⟨d, hd, rfl⟩ := List.mem_map.mp hitem
    exact (h d hd).contract
  items item hitem := by
    obtain ⟨d, hd, rfl⟩ := List.mem_map.mp hitem
    simp only [Declaration.item, List.forall_mem_cons]
    exact ⟨rfl, rfl, (h d hd).src, List.forall_mem_nil _⟩
  types := by
    refine Layout.of_mem_ofList (P := fun label => label.isText = true) fun entry hentry => ?_
    obtain ⟨d, hd, rfl⟩ := List.mem_map.mp hentry
    exact ⟨rfl, rfl⟩
  distinct := Table.distinctKeys_ofList _

variable {N : LogLevel → Document → Prop} {locate : Document → Logged Document}
  (hlocate : ∀ node, (locate node).Tells N fun src => src.isText = true)
include hlocate

variable [NestingLimits]

theorem declaration_tells {contract : Document} (hcontract : N .debug contract) (node : Document) :
    (declaration locate contract node).Tells N (Declaration.Named (N .debug)) := by
  refine Logged.tells_bind_lift fun name _ => ?_
  refine Logged.tells_bind_lift fun type _ => ?_
  exact Logged.tells_bind (hlocate node) fun src hsrc => Logged.tells_pure ⟨hcontract, hsrc⟩

theorem declarations_tells {contract : Document} (hcontract : N .debug contract)
    (nodes : List Document) :
    (declarations locate contract nodes).Tells N fun ds => ∀ d ∈ ds, d.Named (N .debug) := by
  induction nodes with
  | nil => exact Logged.tells_pure (List.forall_mem_nil _)
  | cons node rest ih =>
    refine Logged.tells_bind_lift fun kept _ => ?_
    cases kept with
    | false => exact ih
    | true =>
      refine Logged.tells_bind (declaration_tells hlocate hcontract node) fun first hfirst => ?_
      refine Logged.tells_bind ih fun others hothers => ?_
      exact Logged.tells_pure (List.forall_mem_cons.mpr ⟨hfirst, hothers⟩)

/-- **The layout of a contract with a name of a kind** holds that name, and texts besides. -/
theorem layout_tells {definition : Document}
    (hname : ∀ name, definition.member "name" = .ok name → N .debug name) :
    (layout locate definition).Tells N (Layout.Named (N .debug)) := by
  refine Logged.tells_bind (Logged.tells_lift hname) fun contract hcontract => ?_
  refine Logged.tells_bind_lift fun given _ => ?_
  refine Logged.tells_bind_lift fun nodes _ => ?_
  refine Logged.tells_bind (declarations_tells hlocate hcontract nodes) fun ds hds => ?_
  refine Logged.tells_bind (Logged.tells_report ?_) fun _ _ => Logged.tells_pure (named_layoutOf hds)
  simp only [List.forall_mem_cons]
  exact ⟨hcontract, trivial, trivial, List.forall_mem_nil _⟩

end Extraction

/-! ## Compilations -/

namespace Compilation

/-- Contract definitions whose names are of a kind, where they have names. -/
def NamedBy (N : Document → Prop) (defs : List (Document × Document)) : Prop :=
  ∀ found ∈ defs, ∀ name, found.2.member "name" = .ok name → N name

/-- **Contract definitions whose names are texts**, where they have names. -/
def NamedByTexts : List (Document × Document) → Prop := NamedBy fun name => name.isText = true

instance : DecidablePred NamedByTexts := fun defs =>
  decidable_of_iff (∀ found ∈ defs, (found.2.member "name").toOption.all Document.isText = true) <| by
    refine forall₂_congr fun found _ => ?_
    cases found.2.member "name" <;> simp [Except.toOption]

variable {output : Document} {defs : List (Document × Document)}

/-- The definitions among nodes are some of the nodes. -/
theorem of_mem_definitionsAmong {path : Document} {nodes : List Document}
    (h : definitionsAmong path nodes = .ok defs) :
    ∀ found ∈ defs, found.1 = path ∧ found.2 ∈ nodes := by
  induction nodes generalizing defs with
  | nil =>
    cases h
    exact List.forall_mem_nil _
  | cons node rest ih =>
    obtain ⟨kind, -, h⟩ := bind_eq_ok_iff.mp h
    obtain ⟨others, hothers, h⟩ := bind_eq_ok_iff.mp h
    obtain rfl := Except.ok.inj h
    have hrest : ∀ found ∈ others, found.1 = path ∧ found.2 ∈ node :: rest := fun found hfound =>
      (ih hothers found hfound).imp_right (List.mem_cons_of_mem node)
    split
    · exact List.forall_mem_cons.mpr ⟨⟨rfl, List.mem_cons_self⟩, hrest⟩
    · exact hrest

/-- The definitions of a source are nodes of its syntax tree. -/
theorem of_mem_definitionsOf {path source : Document} (h : definitionsOf path source = .ok defs) :
    ∃ given nodes items, source.memberOrNull "ast" = .ok given
      ∧ (if given.isSet then given else .record []).memberOr "nodes" (.row []) = .ok nodes
      ∧ nodes.elements = .ok items ∧ ∀ found ∈ defs, found.1 = path ∧ found.2 ∈ items := by
  obtain ⟨given, hgiven, h⟩ := bind_eq_ok_iff.mp h
  obtain ⟨nodes, hnodes, h⟩ := bind_eq_ok_iff.mp h
  obtain ⟨items, hitems, h⟩ := bind_eq_ok_iff.mp h
  exact ⟨given, nodes, items, hgiven, hnodes, hitems, of_mem_definitionsAmong h⟩

/-- A definition in sources is one of the definitions of a source. -/
theorem exists_of_mem_definitionsIn {sources : List (Document × Document)}
    (h : definitionsIn sources = .ok defs) :
    ∀ found ∈ defs, ∃ source ∈ sources, ∃ own, definitionsOf source.1 source.2 = .ok own
      ∧ found ∈ own := by
  induction sources generalizing defs with
  | nil =>
    cases h
    exact List.forall_mem_nil _
  | cons source rest ih =>
    obtain ⟨own, hown, h⟩ := bind_eq_ok_iff.mp h
    obtain ⟨others, hothers, h⟩ := bind_eq_ok_iff.mp h
    cases h
    refine List.forall_mem_append.mpr ⟨fun found hfound => ?_, fun found hfound => ?_⟩
    · exact ⟨source, List.mem_cons_self, own, hown, hfound⟩
    · obtain ⟨source, hsource, hfound⟩ := ih hothers found hfound
      exact ⟨source, List.mem_cons_of_mem _ hsource, hfound⟩

/-- **The path of a contract definition is a text** in an output that comes from JSON. -/
theorem isText_path_of_definitions (houtput : output.IsJson) (h : definitions output = .ok defs) :
    ∀ found ∈ defs, found.1.isText = true := by
  intro found hfound
  obtain ⟨sources, hsources, h⟩ := bind_eq_ok_iff.mp h
  obtain ⟨entries, hentries, h⟩ := bind_eq_ok_iff.mp h
  obtain ⟨source, hsource, own, hown, hfound⟩ := exists_of_mem_definitionsIn h found hfound
  obtain ⟨_, _, _, -, -, -, hown⟩ := of_mem_definitionsOf hown
  rw [(hown found hfound).1]
  exact (houtput.of_memberOr Document.isJson_record_nil hsources).isText_of_entries hentries
    source hsource

theorem mem_of_answers {q : Query} {found : List (Document × Document)}
    (h : answers q defs = .ok found) : found ⊆ defs := by
  induction defs generalizing found with
  | nil =>
    cases h
    exact List.nil_subset _
  | cons first rest ih =>
    obtain ⟨here, -, h⟩ := bind_eq_ok_iff.mp h
    obtain ⟨others, hothers, h⟩ := bind_eq_ok_iff.mp h
    obtain rfl := Except.ok.inj h
    split
    · exact List.cons_subset_cons first (ih hothers)
    · exact List.subset_cons_of_subset _ (ih hothers)

/-- What is found is one of the definitions. -/
theorem mem_of_find [NestingLimits] {q : Query} {found : Document × Document}
    (h : find output q = .ok found) (hdefs : definitions output = .ok defs) : found ∈ defs := by
  obtain ⟨defs', hdefs', h⟩ := bind_eq_ok_iff.mp h
  obtain rfl := Except.ok.inj (hdefs.symm.trans hdefs')
  obtain ⟨several, hseveral, h⟩ := bind_eq_ok_iff.mp h
  match several, h with
  | [], h =>
    obtain ⟨shown, -, h⟩ := bind_eq_ok_iff.mp h
    cases h
  | [only], h =>
    cases h
    exact mem_of_answers hseveral List.mem_cons_self
  | first :: second :: rest, h =>
    obtain ⟨shown, -, h⟩ := bind_eq_ok_iff.mp h
    obtain ⟨candidates, -, h⟩ := bind_eq_ok_iff.mp h
    cases h

/-- **A base is one of the definitions.** -/
theorem mem_of_base [NestingLimits] {known : Table Document} {definition id b : Document}
    (hknown : definitionsById output = .ok known) (hdefs : definitions output = .ok defs)
    (hdefinition : definition ∈ defs.map Prod.snd) (h : base known definition id = .ok b) :
    b ∈ defs.map Prod.snd := by
  obtain ⟨own, -, h⟩ := bind_eq_ok_iff.mp h
  split at h
  · cases h
    exact hdefinition
  · obtain ⟨looked, hlooked, h⟩ := bind_eq_ok_iff.mp h
    obtain ⟨-, rfl⟩ := Document.lookUp_eq_ok_iff.mp hlooked
    cases hfound : known.find? id with
    | none =>
      rw [hfound] at h
      obtain ⟨missing, -, h⟩ := bind_eq_ok_iff.mp h
      obtain ⟨name, -, h⟩ := bind_eq_ok_iff.mp h
      obtain ⟨shown, -, h⟩ := bind_eq_ok_iff.mp h
      cases h
    | some found =>
      rw [hfound] at h
      cases h
      -- nothing but definitions is entered by its number
      obtain ⟨defs', hdefs', hknown⟩ := bind_eq_ok_iff.mp hknown
      obtain rfl := Except.ok.inj (hdefs.symm.trans hdefs')
      obtain ⟨entry, hentry, -, rfl⟩ := Table.exists_of_find? hfound
      rw [enterById_eq_ok hknown] at hentry
      obtain ⟨origin, horigin, hvalue, -⟩ := Table.exists_of_mem_ofList hentry
      obtain ⟨entered, hentered, horigin⟩ := List.mem_filterMap.mp horigin
      obtain ⟨number, -, rfl⟩ := Option.map_eq_some_iff.mp horigin
      exact hvalue ▸ List.mem_map.mpr ⟨entered, hentered, rfl⟩

variable {locate : Document → Logged Document} {N : LogLevel → Document → Prop}

theorem baseLayouts_tells [NestingLimits]
    (hlocate : ∀ node, (locate node).Tells N fun src => src.isText = true) {known : Table Document}
    {definition : Document} (hknown : definitionsById output = .ok known)
    (hdefs : definitions output = .ok defs) (hnames : NamedBy (N .debug) defs)
    (hdefinition : definition ∈ defs.map Prod.snd) (ids : List Document) :
    (baseLayouts locate known definition ids).Tells N
      fun layouts => ∀ l ∈ layouts, l.Named (N .debug) := by
  induction ids with
  | nil => exact Logged.tells_pure (List.forall_mem_nil _)
  | cons id rest ih =>
    refine Logged.tells_bind_lift fun b hb => ?_
    obtain ⟨found, hfound, rfl⟩ := List.mem_map.mp (mem_of_base hknown hdefs hdefinition hb)
    refine Logged.tells_bind (Extraction.layout_tells hlocate (hnames found hfound))
      fun first hfirst => ?_
    refine Logged.tells_bind ih fun others hothers => ?_
    exact Logged.tells_pure (List.forall_mem_cons.mpr ⟨hfirst, hothers⟩)

/-- **What is extracted from a compilation in JSON holds names of a kind, if the definitions do**,
and texts besides, and so do the events on the way to it. What the definitions are named is told in
events of the level `debug` only. -/
theorem layout_tells [NestingLimits] (hN : HoldsTexts (N .debug)) {input : Document}
    (houtput : output.IsJson)
    (hnames : ∀ defs, definitions output = .ok defs → NamedBy (N .debug) defs) {q : Query}
    (hasked : N .info q.asked) (hname : N .debug q.name) :
    (layout input output q).Tells N (Layout.Named (N .debug)) := by
  -- the event tells the name and the path, and what is found is one of the definitions
  have hfind : (findContract output q).Tells N fun definition =>
      ∃ defs, definitions output = .ok defs ∧ definition ∈ defs.map Prod.snd := by
    refine Logged.tells_bind_lift fun found hfound => ?_
    obtain ⟨defs, hdefs, -⟩ := bind_eq_ok_iff.mp hfound
    have hmem := mem_of_find hfound hdefs
    refine Logged.tells_bind (Logged.tells_report ?_) fun _ _ =>
      Logged.tells_pure ⟨defs, hdefs, List.mem_map_of_mem hmem⟩
    simp only [List.forall_mem_cons]
    exact ⟨hname, hN.of_isText (isText_path_of_definitions houtput hdefs found hmem),
      List.forall_mem_nil _⟩
  refine Logged.tells_bind hfind fun definition hdefinition => ?_
  obtain ⟨defs, hdefs, hdefinition⟩ := hdefinition
  refine Logged.tells_bind_lift fun sources hsources => ?_
  have hlocate := Sources.locate_tells hN (Sources.isText_of_ofCompilation houtput hsources)
  refine Logged.tells_bind (P := Layout.Named (N .debug)) ?_ fun found hfound => ?_
  · refine Logged.tells_bind_lift fun known hknown => ?_
    refine Logged.tells_bind_lift fun ids _ => ?_
    refine Logged.tells_bind
      (baseLayouts_tells hlocate hknown hdefs (hnames defs hdefs) hdefinition ids)
      fun layouts hlayouts => ?_
    exact Logged.tells_pure (Layout.named_concat hlayouts)
  · refine Logged.tells_bind (Logged.tells_report ?_) fun _ _ => Logged.tells_pure hfound
    simp only [List.forall_mem_cons]
    exact ⟨hasked, trivial, List.forall_mem_nil _⟩

theorem Query.isText_ofText (name : String) :
    (ofText name).asked.isText = true ∧ (ofText name).name.isText = true := by
  unfold ofText
  split <;> exact ⟨rfl, rfl⟩

/-- **What is extracted from a compilation in JSON is a layout of texts**, and every event on the way
to it can be shown. -/
theorem layout_yields [NestingLimits] {input : Document} (houtput : output.IsJson)
    (hnames : ∀ defs, definitions output = .ok defs → NamedByTexts defs) (name : String) :
    (layout input output (.ofText name)).Yields Layout.OfTexts := by
  obtain ⟨hasked, hname⟩ := Query.isText_ofText name
  have htells : (layout input output (.ofText name)).Tells _ _ :=
    layout_tells (N := fun _ d => d.isText = true) (fun _ => rfl) houtput hnames hasked hname
  obtain ⟨hplain, hresult⟩ := htells.yields
  exact ⟨hplain, fun l hl => (hresult l hl).ofTexts⟩

end Compilation

end SlotSafe
