import SlotSafe.Proofs.AlikeRuns
import SlotSafe.Proofs.Readings
import SlotSafe.Proofs.RenamedCompilations

/-!
# A snapshot stands in for its build info

The layout of a contract is extracted from build info and saved as JSON. **From then on a comparison
does not depend on whether the build info or the snapshot is named for the contract**
(`run_alike_of_extract`), as the original or as the updated file, whatever the other file holds.

The two ways to the layout meet in two steps. What is loaded from the snapshot is the layout that
was extracted, because it consists of texts. And what is extracted again from the build info is that
layout too: the file is another one than the snapshot, so it still holds what it held, and a second
reading of it only renames identities, of which a layout of texts has none. On both ways every event
is plain, so none of them can end a run.
-/

namespace SlotSafe

variable {σ : Renaming}

/-! ## Texts hold no identity -/

theorem Document.rename_of_isText {d : Document} (h : d.isText = true) : d.rename σ = d := by
  obtain ⟨s, rfl⟩ := Document.exists_text_of_isText h
  rfl

/-- **A layout of texts holds no identity.** -/
theorem Layout.OfTexts.rename {l : Layout} (h : l.OfTexts) : l.rename σ = l := by
  have hitems : l.items.map (Item.rename σ) = l.items := by
    refine (List.map_congr_left fun item hitem => ?_).trans (List.map_id _)
    obtain ⟨contract, label, type, src, rfl⟩ := exists_texts_of_item (h.items item hitem)
    rfl
  have htypes : l.types.entries.map (Document.renameEntry σ) = l.types.entries := by
    refine (List.map_congr_left fun entry hentry => ?_).trans (List.map_id _)
    obtain ⟨hkey, hlabel⟩ := h.types entry hentry
    exact Prod.ext (Document.rename_of_isText hkey) (Document.rename_of_isText hlabel)
  exact Layout.ext_parts hitems (congrArg Table.mk htypes)

theorem LogEvent.rename_of_isPlain {e : LogEvent} (h : ∀ field ∈ e.fields, field.2.IsPlain) :
    e.rename σ = e := by
  have hfields : e.fields.map (fun field => (field.1, field.2.rename σ)) = e.fields := by
    refine (List.map_congr_left fun field hfield => ?_).trans (List.map_id _)
    obtain ⟨name, value⟩ := field
    cases value with
    | count n => rfl
    | document d =>
      exact congrArg (fun d => (name, LogValue.document d))
        (Document.rename_of_isText (h _ hfield))
  unfold rename
  rw [hfields]

/-- **What yields a layout of texts does not depend on identities.** -/
theorem Logged.Yields.rename {x : Logged Layout} (h : x.Yields Layout.OfTexts) :
    x.rename σ (Layout.rename σ) = x := by
  obtain ⟨events, result⟩ := x
  obtain ⟨hplain, hresult⟩ := h
  have hevents : events.map (LogEvent.rename σ) = events :=
    (List.map_congr_left fun e he => LogEvent.rename_of_isPlain (hplain e he)).trans (List.map_id _)
  show Logged.mk (events.map (LogEvent.rename σ)) (result.map (Layout.rename σ)) = _
  rw [hevents]
  cases result with
  | error fault => rfl
  | ok l => rw [Except.map, (hresult l rfl).rename]

namespace Compilation

theorem Query.rename_ofText (name : String) : (Query.ofText name).rename σ = .ofText name := by
  unfold Query.ofText
  split <;> rfl

theorem isBuildInfo_rename (d : Document) : isBuildInfo (d.rename σ) = isBuildInfo d := by
  have hpart : ∀ name : String,
      (((d.rename σ).table?.bind (·.find? (.text name))).bind Document.table?)
        = ((d.table?.bind (·.find? (.text name))).bind Document.table?).map (Table.rename σ) := by
    intro name
    rw [Document.table?_rename]
    cases d.table? with
    | none => rfl
    | some table =>
      show ((table.rename σ).find? (.text name)).bind _ = ((table.find? (.text name)).bind _).map _
      have hfind : (table.rename σ).find? (.text name)
          = (table.find? (.text name)).map (Document.rename σ) := table.find?_rename (.text name)
      rw [hfind]
      cases table.find? (.text name) with
      | none => rfl
      | some part => exact Document.table?_rename part
  unfold isBuildInfo
  simp only [hpart, Option.isSome_map]
  cases (d.table?.bind (·.find? (.text "output"))).bind Document.table? with
  | none => rfl
  | some output =>
    exact congrArg (_ && ·) (output.contains_rename (.text "sources"))

end Compilation

/-! ## Extracting again -/

namespace Directory

variable {d d' : Directory} {reading : Nat} {path : String} {found : Document}

variable [NestingLimits]

theorem documentIn_json_eq_ok_iff :
    d.documentIn reading .json path = .ok found ↔ ∃ content chars, d.content path = .ok content
      ∧ content.read true = (chars, none) ∧ Json.read reading chars = .ok found := by
  unfold documentIn
  cases d.content path with
  | error fault => simp [bind, Except.bind]
  | ok content =>
    cases hread : content.read true with
    | mk chars undecoded =>
      show DataFormat.read .json reading (content.read true).1 (content.read true).2 = _ ↔ _
      rw [hread]
      cases undecoded with
      | some e => simp [DataFormat.read, hread]
      | none =>
        cases hjson : Json.read reading chars <;> simp [DataFormat.read, Except.mapError, hread, hjson]

theorem isJson_of_documentIn (h : d.documentIn reading .json path = .ok found) : found.IsJson := by
  obtain ⟨_, _, -, -, hread⟩ := documentIn_json_eq_ok_iff.mp h
  exact Json.isJson_of_read hread

theorem within_of_documentIn (h : d.documentIn reading .json path = .ok found) :
    ∃ bound, found.Within (NestingLimits.reading .json) bound := by
  obtain ⟨_, _, -, -, hread⟩ := documentIn_json_eq_ok_iff.mp h
  exact Json.within_of_read hread

/-- **A file that is read again holds the same document**, with other identities. -/
theorem exists_rename_of_documentIn (h : d.documentIn 1 .json path = .ok found)
    (hkept : ∀ content, d.content path = .ok content → d'.content path = .ok content)
    (hreading : reading ≠ 0) :
    ∃ σ : Renaming, d'.documentIn reading .json path = .ok (found.rename σ) := by
  obtain ⟨content, chars, hcontent, hchars, hread⟩ := documentIn_json_eq_ok_iff.mp h
  refine ⟨.exchange 1 reading, documentIn_json_eq_ok_iff.mpr ⟨content, chars, hkept _ hcontent,
    hchars, ?_⟩⟩
  rw [Json.read_rename (Renaming.exchange_leads Nat.one_ne_zero hreading), hread]
  rfl

/-- The contract definitions in build info. -/
def contracts (d : Directory) (path : String) : Except Fault (List (Document × Document)) := do
  let info ← d.documentIn 1 .json path
  Compilation.definitions (← info.member "output")

theorem exists_info_of_extractedLayout {query : Compilation.Query} {l : Layout}
    (h : (d.extractedLayout reading path query).result = .ok l) :
    ∃ info input output, d.documentIn reading .json path = .ok info
      ∧ Compilation.isBuildInfo info = true ∧ info.member "input" = .ok input
      ∧ info.member "output" = .ok output
      ∧ (Compilation.layout input output query).result = .ok l := by
  obtain ⟨⟨input, output⟩, hinfo, hlayout⟩ := Logged.result_bind_eq_ok_iff.mp h
  unfold buildInfo at hinfo
  split at hinfo
  · cases hinfo
  · obtain ⟨info, hread, hinfo⟩ := Logged.result_bind_eq_ok_iff.mp hinfo
    split at hinfo
    · cases hinfo
    · next hshape =>
      obtain ⟨version, -, hinfo⟩ := Logged.result_bind_eq_ok_iff.mp hinfo
      obtain ⟨_, -, hinfo⟩ := Logged.result_bind_eq_ok_iff.mp hinfo
      obtain ⟨input', hinput, hinfo⟩ := Logged.result_bind_eq_ok_iff.mp hinfo
      obtain ⟨output', houtput, hinfo⟩ := Logged.result_bind_eq_ok_iff.mp hinfo
      cases hinfo
      refine ⟨info, input, output, hread, ?_, hinput, houtput, hlayout⟩
      simpa using hshape

/-- The document of a JSON file that is there. -/
theorem document_of_documentIn (hjson : ¬DataFormat.EndsAsYaml path)
    (h : d.documentIn reading .json path = .ok found) : d.document reading path = .ok found := by
  obtain ⟨content, _, hcontent, -⟩ := documentIn_json_eq_ok_iff.mp h
  unfold document
  rw [if_pos (exists?_of_content hcontent), DataFormat.ofPath_eq_json hjson, h]

theorem layout_of_document {contract : String} (hcontract : contract ≠ "") {input output : Document}
    (hfound : d.document reading path = .ok found) (hshape : Compilation.isBuildInfo found = true)
    (hinput : found.member "input" = .ok input) (houtput : found.member "output" = .ok output) :
    d.layout reading path (some contract) = Compilation.layout input output (.ofText contract) := by
  have hempty : ¬contract.isEmpty = true := by rwa [String.isEmpty_iff]
  unfold layout
  rw [hfound, Logged.lift_ok_bind, if_pos hshape]
  simp only
  rw [if_neg hempty, hinput, houtput]
  rfl

/-- **The layout that was extracted is what is loaded from the build info**, in any reading of it. -/
theorem layout_of_extractedLayout {contract : String} (hcontract : contract ≠ "")
    (hjson : ¬DataFormat.EndsAsYaml path)
    (hnames : ∀ defs, d.contracts path = .ok defs → Compilation.NamedByTexts defs) {l : Layout}
    (h : (d.extractedLayout 1 path (.ofText contract)).result = .ok l)
    (hkept : ∀ content, d.content path = .ok content → d'.content path = .ok content)
    (hreading : reading ≠ 0) :
    (d'.layout reading path (some contract)).Yields Layout.OfTexts
      ∧ (d'.layout reading path (some contract)).result = .ok l := by
  obtain ⟨info, input, output, hinfo, hshape, hinput, houtput, hlayout⟩ :=
    exists_info_of_extractedLayout h
  have hyields : (Compilation.layout input output (.ofText contract)).Yields Layout.OfTexts := by
    refine Compilation.layout_yields ((isJson_of_documentIn hinfo).of_member houtput) ?_ contract
    intro defs hdefs
    refine hnames defs ?_
    rw [contracts, hinfo]
    show (info.member "output" >>= Compilation.definitions) = _
    rw [houtput]
    exact hdefs
  -- a second reading only renames identities, and what is extracted does not depend on them
  obtain ⟨σ, hagain⟩ := exists_rename_of_documentIn hinfo hkept hreading
  have hrenamed := (Compilation.layout_rename input output (.ofText contract)).trans
    (hyields.rename (σ := σ))
  rw [Compilation.Query.rename_ofText] at hrenamed
  have hloaded : d'.layout reading path (some contract)
      = Compilation.layout input output (.ofText contract) := by
    refine (layout_of_document hcontract (document_of_documentIn hjson hagain) ?_ ?_ ?_).trans
      hrenamed
    · rw [Compilation.isBuildInfo_rename, hshape]
    · rw [Document.member_rename, hinput, Except.map]
    · rw [Document.member_rename, houtput, Except.map]
  rw [hloaded]
  exact ⟨hyields, hlayout⟩

end Directory

/-! ## The snapshot -/

theorem Layout.not_isBuildInfo_of_comesBackAs {l : Layout} {found : Document}
    (h : Document.ComesBackAs l.toDocument found) : Compilation.isBuildInfo found = false := by
  unfold Layout.toDocument Document.record at h
  obtain _ | _ | ⟨id, parts⟩ := h
  obtain _ | ⟨⟨_, hstorage⟩, parts⟩ := parts
  obtain _ | ⟨⟨_, htypes⟩, parts⟩ := parts
  cases parts
  -- neither of the two names is that of an input or an output
  rfl

/-- **A saved layout is what is loaded from the file**, as the layout of any contract. -/
theorem Directory.layout_of_write [NestingLimits] {d d' : Directory} {path : String} {l : Layout}
    (hl : l.OfTexts) (hjson : ¬DataFormat.EndsAsYaml path)
    (hwrite : d.write path (DataFormat.json.write l.toDocument).chars = .ok d') (reading : Nat)
    (contract : Option String) :
    (d'.layout reading path contract).IsPlain
      ∧ (d'.layout reading path contract).result = .ok l := by
  obtain ⟨-, found, hback, hfound⟩ := exists_document_of_write hl hjson hwrite reading
  obtain ⟨hmap, hlayout⟩ := Layout.ofDocument_of_comesBackAs hl hback
  unfold Directory.layout
  rw [hfound, Logged.lift_ok_bind, Layout.not_isBuildInfo_of_comesBackAs hback, hmap, hlayout]
  refine ⟨List.forall_mem_singleton.mpr (List.forall_mem_singleton.mpr rfl), rfl⟩

/-! ## Runs -/

/-- A file is written as JSON unless YAML is asked for, by a format or by the name of the file. -/
theorem DataFormat.getD_ofPath_eq_json {format : Option DataFormat} {path : String}
    (hformat : format ≠ some .yaml) (hpath : ¬EndsAsYaml path) :
    format.getD (.ofPath path) = .json := by
  cases format with
  | none => rw [Option.getD_none, ofPath_eq_json hpath]
  | some given =>
    cases given with
    | json => rfl
    | yaml => exact absurd rfl hformat

namespace CommandLine

/-- What an environment and a command line ask for, if they are in order. -/
def invocation? (environment : List (String × String)) (words : List String) : Option Invocation :=
  (Settings.ofEnvironment environment).toOption.bind fun settings => (read settings words).toOption

theorem run_of_invocation? [NestingLimits] {environment : List (String × String)}
    {words : List String} {i : Invocation} (h : invocation? environment words = some i)
    (d : Directory) :
    run d environment words = i.perform d := by
  unfold invocation? at h
  unfold run
  cases hsettings : Settings.ofEnvironment environment with
  | error fault =>
    rw [hsettings] at h
    cases h
  | ok settings =>
    rw [hsettings] at h
    change (read settings words).toOption = some i at h
    dsimp only
    cases hread : read settings words with
    | error refused =>
      rw [hread] at h
      cases h
    | ok invocation =>
      rw [hread] at h
      cases h
      rfl

variable {d : Directory} {buildInfo contract file : String} {format : Option DataFormat}

/-- **What an extraction has done when it comes to its end**: it has found the layout of the contract,
and if a file is named, it has written the layout there as far as it can be written. -/
theorem exists_layout_of_extractLayout [NestingLimits] {buildInfo contract output : Option String}
    {finish : Finish} (h : (extractLayout d buildInfo contract output format).result = .ok finish) :
    ∃ source l, buildInfo = some source
      ∧ (d.extractedLayout 1 source (queryOf contract)).result = .ok l
      ∧ (output.filter (fun path => !path.isEmpty) = none → finish.directory = d)
      ∧ ∀ path, output.filter (fun path => !path.isEmpty) = some path →
        d.write path ((format.getD (.ofPath path)).write l.toDocument).chars = .ok finish.directory
          ∧ (finish.status = .ok 0
            ↔ ((format.getD (.ofPath path)).write l.toDocument).complete = true) := by
  obtain ⟨source, hsource, h⟩ := Logged.result_bind_eq_ok_iff.mp h
  obtain ⟨l, hl, h⟩ := Logged.result_bind_eq_ok_iff.mp h
  have hgiven : buildInfo = some source := by
    cases buildInfo with
    | none => cases hsource
    | some path => exact congrArg some (Except.ok.inj hsource)
  refine ⟨source, l, hgiven, hl, ?_⟩
  cases hfile : output.filter fun path => !path.isEmpty with
  | none =>
    simp only [hfile] at h
    obtain rfl := Except.ok.inj h
    exact ⟨fun _ => rfl, nofun⟩
  | some path =>
    simp only [hfile] at h
    refine ⟨nofun, fun _ hpath => ?_⟩
    obtain rfl := Option.some.inj hpath
    obtain ⟨written, hwrite, h⟩ := Logged.result_bind_eq_ok_iff.mp h
    generalize (format.getD (.ofPath path)).write l.toDocument = w at hwrite h ⊢
    unfold Writing.complete
    unfold Fault.ofWriting? at h
    cases hobstacle : w.obstacle with
    | none =>
      rw [hobstacle] at h
      obtain ⟨_, -, h⟩ := Logged.result_bind_eq_ok_iff.mp h
      obtain rfl := Except.ok.inj h
      exact ⟨hwrite, by simp⟩
    | some obstacle =>
      rw [hobstacle] at h
      obtain rfl := Except.ok.inj h
      exact ⟨hwrite, by simp⟩

variable {environment environment' : List (String × String)} {words words₁ words₂ : List String}
  {i j k : Invocation}

/-- **A run that extracts a layout and ends with the exit code 0** has saved that layout. -/
theorem exists_layout_of_run [NestingLimits] (hasked : invocation? environment words = some i)
    (hcommand : i.command = .extract (some buildInfo) (some contract) (some file) format)
    (hdone : (run d environment words).ending = .exit 0) (hfile : file ≠ "")
    (hformat : format.getD (.ofPath file) = .json) :
    ∃ l, (d.extractedLayout 1 buildInfo (.ofText contract)).result = .ok l
      ∧ d.write file (DataFormat.json.write l.toDocument).chars
        = .ok (run d environment words).directory := by
  rw [run_of_invocation? hasked] at hdone ⊢
  obtain ⟨finish, hfinish, -, hdirectory⟩ := Invocation.exists_finish_of_exit_zero hdone
  rw [hcommand] at hfinish
  rw [hdirectory]
  obtain ⟨source, l, hsource, hl, -, hwritten⟩ := exists_layout_of_extractLayout hfinish
  obtain rfl := Option.some.inj hsource
  have hfilter : (some file).filter (fun path => !path.isEmpty) = some file := by simp [hfile]
  exact ⟨l, hl, hformat ▸ (hwritten file hfilter).1⟩

/-- **A snapshot stands in for its build info.** Once the layout of a contract has been extracted
into a JSON file, a comparison of layouts of the contract prints the same and ends in the same way
whichever of the two files it names. -/
theorem run_alike_of_extract [NestingLimits] (hasked : invocation? environment words = some i)
    (hcommand : i.command = .extract (some buildInfo) (some contract) (some file) format)
    (hdone : (run d environment words).ending = .exit 0) (hcontract : contract ≠ "")
    (hnames : ∀ defs, d.contracts buildInfo = .ok defs → Compilation.NamedByTexts defs)
    (hinfo : ¬DataFormat.EndsAsYaml buildInfo) (hfile : file ≠ "")
    (hjson : ¬DataFormat.EndsAsYaml file) (hformat : format ≠ some .yaml)
    (hother : d.placeFor file ≠ d.placeFor buildInfo)
    (hj : invocation? environment' words₁ = some j) (hk : invocation? environment' words₂ = some k)
    (hswaps : Command.Swaps buildInfo file contract j.command k.command)
    (hsettings : k = { j with command := k.command }) :
    (run (run d environment words).directory environment' words₁).Alike
      (run (run d environment words).directory environment' words₂) := by
  have hwritten := DataFormat.getD_ofPath_eq_json hformat hjson
  obtain ⟨l, hl, hwrite⟩ := exists_layout_of_run hasked hcommand hdone hfile hwritten
  generalize (run d environment words).directory = d' at hwrite ⊢
  rw [run_of_invocation? hj, run_of_invocation? hk]
  refine Invocation.perform_alike (fun reading hreading => ?_) hswaps hsettings
  -- the snapshot stands at another place, so the build info still holds what it held
  obtain ⟨hyields, hloaded⟩ := Directory.layout_of_extractedLayout hcontract hinfo hnames hl
    (fun content => Directory.content_of_write_of_ne hwrite hother.symm) hreading
  obtain ⟨hplain, hsaved⟩ :=
    Directory.layout_of_write (hyields.2 l hloaded) hjson hwrite reading contract
  exact hyields.1.alike hplain (hloaded.trans hsaved.symm)

/-- The exit code of a run, unless a fault that was not expected has stopped it. -/
def Ending.code? : Ending → Option Nat
  | exit code => some code
  | escaped _ => none

theorem Ending.code?_eq_some_iff {ending : Ending} {code : Nat} :
    ending.code? = some code ↔ ending = .exit code := by
  cases ending <;> simp [code?]

/-- Build info of a contract with one variable. -/
def vaultBuildInfo : Document :=
  .record [("input", .record []), ("output", .record [("sources", .record [("vault.sol", .record [
    ("id", .int 0), ("ast", .record [("nodes", .row [.record [("id", .int 1),
      ("nodeType", .text "ContractDefinition"), ("name", .text "Vault"), ("nodes", .row [.record [
        ("nodeType", .text "VariableDeclaration"), ("name", .text "owner"), ("src", .text "0:1:0"),
        ("typeDescriptions", .record [("typeIdentifier", .text "t_address"),
          ("typeString", .text "address")])]])]])])])])])]

/-- A directory with nothing but this build info. -/
def vaultDirectory : Directory :=
  ⟨[(["build.json"], .file (.text (DataFormat.json.write vaultBuildInfo).chars))]⟩

/-- The command line that saves the layout of the contract. -/
def saveVault : List String := ["extract", "build.json", "--contract", "Vault", "-o", "vault.json"]

/-- The command line that checks a file against the build info. -/
def checkVault (original : String) : List String :=
  ["check", original, "build.json", "--contract", "Vault"]

theorem run_alike_saveVault :
    (run (run vaultDirectory [] saveVault).directory [] (checkVault "build.json")).Alike
      (run (run vaultDirectory [] saveVault).directory [] (checkVault "vault.json")) := by
  have hnames : ((vaultDirectory.contracts "build.json").toOption.all fun defs =>
      decide (Compilation.NamedByTexts defs)) = true := by decide +kernel
  refine run_alike_of_extract
    (i := ⟨{}, false, false, false,
      .extract (some "build.json") (some "Vault") (some "vault.json") none⟩)
    (j := ⟨{}, false, false, false, .check (some "build.json") (some "build.json") (some "Vault")⟩)
    (k := ⟨{}, false, false, false, .check (some "vault.json") (some "build.json") (some "Vault")⟩)
    (by decide +kernel) rfl (Ending.code?_eq_some_iff.mp (by decide +kernel)) (by decide)
    (fun defs hdefs => ?_) (by decide +kernel) (by decide) (by decide +kernel) (by decide)
    (fun hplace => absurd (congrArg Except.toOption hplace) (by decide +kernel))
    (by decide +kernel) (by decide +kernel) (.checkOriginal _) rfl
  rw [hdefs] at hnames
  exact of_decide_eq_true hnames

end CommandLine

end SlotSafe
