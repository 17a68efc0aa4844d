import SlotSafe.Json.Line
import SlotSafe.Proofs.NestedLayouts
import SlotSafe.Proofs.StandIns

/-!
# What an extraction leaves behind

A file is written after the layout has been extracted, and by then nothing but the writing itself can
fail. What stands in build info may be nested as deep as JSON is read, and a layout puts fewer lists and
maps around the name of a contract than the build info does. Neither format need be written that deep.
**So an extraction that does not end with the exit code 0 has changed nothing, unless the name of a
contract lies too deep for what is written; one that does has changed nothing but the file that is named
for it, which holds the whole layout** (`run_extract_leaves`).
-/

namespace SlotSafe

/-! ## Layouts that are written -/

namespace Layout

variable {l : Layout} {height bound : Nat}

/-- **A layout whose contracts have names that are not nested too deep is written** completely. -/
theorem complete_write [NestingLimits] (h : l.Named fun name => name.Within height bound)
    {format : DataFormat} (hheight : height + 3 ≤ NestingLimits.writing format) :
    (format.write l.toDocument).complete = true :=
  DataFormat.complete_write h.within.toDocument hheight

theorem Named.of_height_le (h : l.Named fun name => name.Within height bound) {height' : Nat}
    (hheight : ∀ item ∈ l.items, item.contract.height ≤ height') :
    l.Named fun name => name.Within height' bound :=
  { h with contracts := fun item hitem => (h.contracts item hitem).of_height_le (hheight item hitem) }

end Layout

/-- What cannot be written as YAML is left out altogether, since all of it is surveyed before. -/
theorem Yaml.chars_render [NestingLimits] {d : Document} (h : ¬(render d).complete = true) :
    (render d).chars = [] := by
  unfold render at h ⊢
  cases houtline : Outline.ofDocument d with
  | error obstacle => rfl
  | ok outline =>
    rw [houtline] at h
    exact absurd rfl h

namespace CommandLine

theorem within_queryOf {height : Nat} (hheight : 0 < height) (bound : Nat) (contract : Option String) :
    (queryOf contract).asked.Within height bound ∧ (queryOf contract).name.Within height bound := by
  cases contract with
  | none => exact ⟨Document.within_row_nil hheight, Document.within_row_nil hheight⟩
  | some name =>
    obtain ⟨hasked, hname⟩ := Compilation.Query.isText_ofText name
    exact ⟨Document.within_of_isText hasked _ _, Document.within_of_isText hname _ _⟩

end CommandLine

open CommandLine

/-- **The name of a contract lies seven levels deep in build info**, so the names in an extracted
layout are not nested deeper than what is left. -/
theorem Directory.named_of_extractedLayout [NestingLimits] {d : Directory} {reading : Nat}
    {path : String} {contract : Option String} {l : Layout}
    (h : (d.extractedLayout reading path (queryOf contract)).result = .ok l) :
    ∃ bound, l.Named fun name => name.Within (NestingLimits.reading .json - 7) bound := by
  obtain ⟨info, input, output, hinfo, -, -, houtput, hlayout⟩ := exists_info_of_extractedLayout h
  obtain ⟨bound, hinfo⟩ := within_of_documentIn hinfo
  have houtput : output.Within (NestingLimits.reading .json - 1) bound := hinfo.of_member houtput
  have hreading := NestingLimits.eight_le_reading .json
  obtain ⟨hasked, hname⟩ :=
    within_queryOf (show 0 < NestingLimits.reading .json - 7 by omega) bound contract
  have hnames : ∀ defs, Compilation.definitions output = .ok defs →
      Compilation.NamedBy (fun name => name.Within (NestingLimits.reading .json - 7) bound) defs := by
    intro defs hdefs
    rw [show NestingLimits.reading .json - 7 = NestingLimits.reading .json - 1 - 6 by omega]
    exact Compilation.namedBy_of_definitions houtput (by omega) hdefs
  exact ⟨bound, (Compilation.layout_tells (N := fun _ name => name.Within _ bound)
    (fun s => .text s) houtput.isJson hnames hasked hname).result l hlayout⟩

/-! ## What is left behind -/

namespace Directory

/-- **A text stands in a file, and every other place is as it was.** -/
structure Rewrites (d : Directory) (path : String) (chars : List Char) (d' : Directory) : Prop where
  content : d'.content path = .ok (.text chars)
  others : ∃ place, d.placeFor path = .ok place
    ∧ ∀ q, q ≠ place → d'.entries.lookup q = d.entries.lookup q

theorem rewrites_of_write {d d' : Directory} {path : String} {chars : List Char}
    (h : d.write path chars = .ok d') : d.Rewrites path chars d' := by
  refine ⟨content_of_write h, ?_⟩
  obtain ⟨place, hplace, rfl⟩ := write_eq_ok_iff.mp h
  exact ⟨place, hplace, fun q hq => (lookup_put d place q _).trans (if_neg hq)⟩

end Directory

namespace CommandLine

section

variable [NestingLimits]

/-- **The layout of a contract is delivered**: nothing is changed but the file that is named for it,
if one is, and there the whole layout stands, in the format that is asked for or that the name of the
file tells. -/
def Delivers (d : Directory) (buildInfo contract output : Option String) (format : Option DataFormat)
    (d' : Directory) : Prop :=
  ∃ source l, buildInfo = some source
    ∧ (d.extractedLayout 1 source (queryOf contract)).result = .ok l
    ∧ match output.filter (fun path => !path.isEmpty) with
      | none => d' = d
      | some path =>
        ((format.getD (.ofPath path)).write l.toDocument).complete = true
          ∧ d.Rewrites path ((format.getD (.ofPath path)).write l.toDocument).chars d'

/-- **A layout is too deep for its format**: a contract has a name with too many lists and maps inside
one another, and the file that is named for the layout holds what comes before. In YAML that is
nothing. -/
def CutShort (d : Directory) (buildInfo contract output : Option String) (format : Option DataFormat)
    (d' : Directory) : Prop :=
  ∃ source l path, buildInfo = some source
    ∧ (d.extractedLayout 1 source (queryOf contract)).result = .ok l
    ∧ output = some path
    ∧ (∃ item ∈ l.items,
      NestingLimits.writing (format.getD (.ofPath path)) < item.contract.height + 3)
    ∧ d.Rewrites path ((format.getD (.ofPath path)).write l.toDocument).chars d'
    ∧ (format.getD (.ofPath path) = .yaml → d'.content path = .ok (.text []))

variable {d : Directory} {buildInfo contract output : Option String} {format : Option DataFormat}
  {finish : Finish}

/-- **What an extraction leaves** when it comes to its end. -/
theorem of_extractLayout
    (h : (extractLayout d buildInfo contract output format).result = .ok finish) :
    (finish.status = .ok 0 → Delivers d buildInfo contract output format finish.directory)
      ∧ (finish.status ≠ .ok 0 → finish.directory = d
        ∨ CutShort d buildInfo contract output format finish.directory) := by
  obtain ⟨source, l, hsource, hl, hshown, hwritten⟩ := exists_layout_of_extractLayout h
  cases hfile : output.filter fun path => !path.isEmpty with
  | none =>
    refine ⟨fun _ => ⟨source, l, hsource, hl, ?_⟩, fun _ => .inl (hshown hfile)⟩
    rw [hfile]
    exact hshown hfile
  | some path =>
    obtain ⟨hwrite, hdone⟩ := hwritten path hfile
    have hrewrites := Directory.rewrites_of_write hwrite
    refine ⟨fun hstatus => ⟨source, l, hsource, hl, ?_⟩, fun hstatus => .inr ?_⟩
    · rw [hfile]
      exact ⟨hdone.mp hstatus, hrewrites⟩
    · have hcut := mt hdone.mpr hstatus
      refine ⟨source, l, path, hsource, hl, (Option.filter_eq_some_iff.mp hfile).1, ?_, hrewrites,
        fun hyaml => ?_⟩
      · by_contra hdeep
        push Not at hdeep
        have hlow : ∀ item ∈ l.items, item.contract.height
            ≤ NestingLimits.writing (format.getD (.ofPath path)) - 3 :=
          fun item hitem => Nat.le_sub_of_add_le (hdeep item hitem)
        obtain ⟨bound, hnamed⟩ := Directory.named_of_extractedLayout hl
        have hwriting := NestingLimits.eight_le_writing (format.getD (.ofPath path))
        exact hcut (Layout.complete_write (hnamed.of_height_le hlow) (by omega))
      · rw [hyaml] at hcut hrewrites
        have hempty : (DataFormat.yaml.write l.toDocument).chars = [] := Yaml.chars_render hcut
        exact hempty ▸ hrewrites.content

/-- A run whose command line is not in order leaves everything as it was. -/
theorem directory_run_of_invocation? {environment : List (String × String)} {words : List String}
    (h : invocation? environment words = none) (d : Directory) :
    (run d environment words).directory = d := by
  unfold invocation? at h
  unfold run
  cases hsettings : Settings.ofEnvironment environment with
  | error fault => rfl
  | ok settings =>
    rw [hsettings] at h
    change (read settings words).toOption = none at h
    cases hread : read settings words with
    | error refused =>
      dsimp only
      rw [hread]
      dsimp only [refuse]
      cases refused.refusal <;> rfl
    | ok invocation =>
      rw [hread] at h
      cases h

/-- **What an extraction leaves behind.** Where it is not carried out, nothing is changed. Where it
ends with the exit code 0, the layout of the contract is delivered. Where it ends in any other way,
nothing is changed, unless the layout is too deep for the format in which it is written. -/
theorem run_extract_leaves (d : Directory) (environment : List (String × String))
    (words : List String) :
    (invocation? environment words = none → (run d environment words).directory = d)
    ∧ ∀ i buildInfo contract output format, invocation? environment words = some i →
      i.command = .extract buildInfo contract output format →
        ((run d environment words).ending = .exit 0 →
          Delivers d buildInfo contract output format (run d environment words).directory)
        ∧ ((run d environment words).ending ≠ .exit 0 →
          (run d environment words).directory = d
            ∨ CutShort d buildInfo contract output format (run d environment words).directory) := by
  refine ⟨fun h => directory_run_of_invocation? h d, ?_⟩
  intro i buildInfo contract output format hasked hcommand
  rw [run_of_invocation? hasked]
  by_cases hlevel : i.lacksLogLevel = true
  · unfold Invocation.perform
    rw [if_pos hlevel]
    exact ⟨nofun, fun _ => .inl rfl⟩
  · obtain ⟨lines, hperform⟩ := i.exists_perform_eq hlevel d
    rw [hperform, hcommand]
    show ((conclude _ _ _).ending = _ → _) ∧ ((conclude _ _ _).ending ≠ _ → _)
    obtain ⟨fault, -, hending, hdirectory⟩ | ⟨finish, hresult, hending, hdirectory⟩ :=
      conclude_cases i.setup d ((Command.extract buildInfo contract output format).perform i.display d)
    · exact ⟨fun h => absurd (hending.symm.trans h) (endFault_ne_exit_zero fault),
        fun _ => .inl hdirectory⟩
    · obtain ⟨hdone, hfailed⟩ := of_extractLayout hresult
      dsimp only
      rw [hending, hdirectory, ne_eq, Finish.ending_eq_exit_zero_iff]
      exact ⟨hdone, hfailed⟩

end

theorem delivers_saveVault :
    Delivers vaultDirectory (some "build.json") (some "Vault") (some "vault.json") none
      (run vaultDirectory [] saveVault).directory := by
  have hasked : invocation? [] saveVault = some ⟨{}, false, false, false,
      .extract (some "build.json") (some "Vault") (some "vault.json") none⟩ := by decide +kernel
  have hdone : (run vaultDirectory [] saveVault).ending = .exit 0 :=
    Ending.code?_eq_some_iff.mp (by decide +kernel)
  exact ((run_extract_leaves vaultDirectory [] saveVault).2 _ _ _ _ _ hasked rfl).1 hdone

/-- A list in a list, and so on. -/
def nestedList : Nat → Document
  | 0 => .row []
  | depth + 1 => .row [nestedList depth]

/-- Build info of a contract with a base that has a list for its name. -/
def nestedBuildInfo (depth : Nat) : Document :=
  .record [("input", .record []), ("output", .record [("sources", .record [("token.sol", .record [
    ("id", .int 0), ("ast", .record [("nodes", .row [
      .record [("id", .int 1), ("nodeType", .text "ContractDefinition"),
        ("name", nestedList depth), ("nodes", .row [.record [
          ("nodeType", .text "VariableDeclaration"), ("name", .text "owner"), ("src", .text "0:1:0"),
          ("typeDescriptions", .record [("typeIdentifier", .text "t_address"),
            ("typeString", .text "address")])]])],
      .record [("id", .int 2), ("nodeType", .text "ContractDefinition"), ("name", .text "Token"),
        ("linearizedBaseContracts", .row [.int 2, .int 1]), ("nodes", .row [])]])])])])])]

/-- A directory with nothing but this build info. -/
def nestedDirectory (depth : Nat) : Directory :=
  ⟨[(["build.json"], .file (.text (Json.line (nestedBuildInfo depth)).chars))]⟩

/-- The command line that saves the layout of the contract as YAML. -/
def saveToken : List String := ["extract", "build.json", "--contract", "Token", "-o", "token.yaml"]

/-- **An extraction that fails can leave a file behind** that was not there before, and it is
empty. -/
theorem run_saveToken_nested :
    (run (nestedDirectory 400) [] saveToken).ending.code? = none
      ∧ (nestedDirectory 400).exists? "token.yaml" = false
      ∧ ((run (nestedDirectory 400) [] saveToken).directory.content "token.yaml").toOption
        = some (.text []) := by
  decide +kernel

end CommandLine

end SlotSafe
