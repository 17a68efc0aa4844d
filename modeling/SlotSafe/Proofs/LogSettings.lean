import SlotSafe.Proofs.ExpectedEndings
import SlotSafe.Proofs.SavedExtractions

/-!
# The log does not reach the result

Three options choose what is shown of the log: its level, its form, and whether all of it is shown.
Events are reported beside the result of a command, so a run can depend on these options in one way
alone: an event that is to be shown, and cannot be, ends the run in its place. **Two runs that differ in
what they show of the log print the same, end in the same way and leave the same files behind, unless
one of them is stopped at an event that cannot be told** (`run_alike_of_sameButLog`).

Where a command reads JSON, the documents in its events are texts, or come from the file, so that
nothing but their depth can keep them from being told (`Command.perform_tells`). When files are
compared, even that takes an event of the level `debug` (`canShow_of_tells`). In YAML a list may hold
itself, and if it is the name of a contract then the event about it has no line in JSON
(`run_diffSelfNamed`).
-/

namespace SlotSafe

open Logged

/-! ## What is told of JSON files -/

/-- **A document that comes from JSON**, however deep it is. -/
def Document.IsFromJson (d : Document) : Prop := ∃ height bound, d.Within height bound

theorem Document.isFromJson_of_isText {d : Document} (h : d.isText = true) : d.IsFromJson :=
  ⟨0, 0, within_of_isText h 0 0⟩

/-- What comes from JSON is told of unless it lies too deep. -/
theorem Document.IsFromJson.canBeTold [NestingLimits] {d : Document} (h : d.IsFromJson)
    (hheight : d.height ≤ NestingLimits.telling) : d.CanBeTold := by
  obtain ⟨height, bound, hwithin⟩ := h
  exact LogValue.canBeTold_of_within (hwithin.of_height_le hheight) (Nat.le_refl _)

/-- **What is told of JSON files that are compared**: documents from them in events of the level
`debug`, and texts in all others. -/
def ToldOfJson (level : LogLevel) (d : Document) : Prop :=
  d.IsFromJson ∧ (level = .debug ∨ d.isText = true)

theorem toldOfJson_of_isText {level : LogLevel} {d : Document} (h : d.isText = true) :
    ToldOfJson level d :=
  ⟨Document.isFromJson_of_isText h, .inr h⟩

namespace Compilation

/-- **What is told while a layout is extracted** from an output that comes from JSON comes from there,
and nothing but what is asked for is told of in events of other levels than `debug`. -/
theorem layout_tells_of_within [NestingLimits] {height bound : Nat} (input : Document)
    {output : Document} {q : Query} (houtput : output.Within height bound) (hdeep : 6 ≤ height)
    (hasked : q.asked.IsFromJson) (hname : q.name.Within (height - 6) bound) :
    (layout input output q).Tells
      (fun level d => d.IsFromJson ∧ (level = .debug ∨ d = q.asked))
      (Layout.Within (height - 6) bound) := by
  have htells : (layout input output q).Tells _ _ := layout_tells
    (N := fun level d => if level = .debug then d.Within (height - 6) bound else d = q.asked)
    (fun s => .text s) houtput.isJson
    (fun defs hdefs => namedBy_of_definitions houtput (by omega) hdefs) rfl hname
  refine htells.mono (fun level d hd => ?_) fun l hl => hl.within
  split at hd
  · next hlevel => exact ⟨⟨_, _, hd⟩, .inl hlevel⟩
  · exact ⟨hd ▸ hasked, .inr hd⟩

end Compilation

namespace Directory

variable [NestingLimits] {d : Directory} {reading : Nat} {path : String}

theorem documentIn_of_document {found : Document} (hjson : ¬DataFormat.EndsAsYaml path)
    (h : d.document reading path = .ok found) : d.documentIn reading .json path = .ok found := by
  unfold document at h
  rw [DataFormat.ofPath_eq_json hjson] at h
  split at h
  · exact h
  · cases h

/-- **What is told while a layout is loaded from JSON**, and the layout, come from there. -/
theorem layout_tells (hjson : ¬DataFormat.EndsAsYaml path) (contract : Option String) :
    (d.layout reading path contract).Tells ToldOfJson
      fun l => ∃ height bound, l.Within height bound := by
  refine tells_bind_lift fun found hfound => ?_
  obtain ⟨bound, hwithin⟩ := within_of_documentIn (documentIn_of_document hjson hfound)
  have hreading := NestingLimits.eight_le_reading .json
  split
  · split
    · next name =>
      split
      · exact tells_bind_lift nofun
      · refine tells_bind_lift fun input _ => tells_bind_lift fun output houtput => ?_
        obtain ⟨hasked, hname⟩ := Compilation.Query.isText_ofText name
        have htells := Compilation.layout_tells_of_within input (hwithin.of_member houtput) (by omega)
          (Document.isFromJson_of_isText hasked) (Document.within_of_isText hname _ bound)
        refine htells.mono (fun level shown hshown => ?_) fun l hl => ⟨_, bound, hl⟩
        obtain ⟨hfrom, hdebug | rfl⟩ := hshown
        · exact ⟨hfrom, .inl hdebug⟩
        · exact toldOfJson_of_isText hasked
    · exact tells_lift nofun
  · split
    · exact tells_bind_lift nofun
    · refine tells_bind (tells_report ?_) fun _ _ => tells_lift fun l hl => ?_
      · exact List.forall_mem_singleton.mpr (toldOfJson_of_isText rfl)
      · exact ⟨_, bound, Layout.within_ofDocument hwithin hl⟩

/-- **What is told while a layout is extracted from build info comes from JSON**, since build info is
JSON whatever its file is called. -/
theorem extractedLayout_tells (contract : Option String) :
    (d.extractedLayout reading path (CommandLine.queryOf contract)).Tells
      (fun _ => Document.IsFromJson) fun _ => True := by
  have hreading := NestingLimits.eight_le_reading .json
  have hinfo : (d.buildInfo reading path).Tells (fun _ => Document.IsFromJson)
      fun parts => ∃ bound, parts.2.Within (NestingLimits.reading .json - 1) bound := by
    unfold buildInfo
    split
    · exact tells_bind_lift nofun
    · refine tells_bind_lift fun info hinfo => ?_
      obtain ⟨bound, hwithin⟩ := within_of_documentIn hinfo
      split
      · exact tells_bind_lift nofun
      · refine tells_bind_lift fun version hversion => ?_
        have hversion : version.IsFromJson := by
          obtain ⟨short, hshort, hversion⟩ := bind_eq_ok_iff.mp hversion
          split at hversion
          · cases hversion
            exact ⟨_, bound, hwithin.of_memberOr .null hshort⟩
          · exact ⟨_, bound, hwithin.of_memberOr .null hversion⟩
        refine tells_bind (tells_report ?_) fun _ _ => ?_
        · simp only [List.forall_mem_cons]
          exact ⟨Document.isFromJson_of_isText rfl, hversion, List.forall_mem_nil _⟩
        · refine tells_bind_lift fun input _ => tells_bind_lift fun output houtput => ?_
          exact tells_pure ⟨bound, hwithin.of_member houtput⟩
  refine tells_bind hinfo fun parts hparts => ?_
  obtain ⟨input, output⟩ := parts
  obtain ⟨bound, houtput⟩ := hparts
  obtain ⟨hasked, hname⟩ := CommandLine.within_queryOf
    (show 0 < NestingLimits.reading .json - 1 - 6 by omega) bound contract
  have htells := Compilation.layout_tells_of_within input houtput (by omega) ⟨_, _, hasked⟩ hname
  exact htells.mono (fun _ _ hd => hd.1) fun _ _ => trivial

end Directory

namespace CommandLine

open Directory

/-! ## What is told by a command -/

variable {d : Directory} {display : Display}

/-- Files none of which has the name of a YAML file. -/
def NamedAsJson (original updated : Option String) : Prop :=
  ∀ path ∈ original.toList ++ updated.toList, ¬DataFormat.EndsAsYaml path

instance (original updated : Option String) : Decidable (NamedAsJson original updated) :=
  inferInstanceAs (Decidable (∀ path ∈ original.toList ++ updated.toList, _))

theorem judgeUpgrade_tells (before after : Layout) :
    (judgeUpgrade before after).Tells ToldOfJson fun _ => True := by
  unfold judgeUpgrade
  dsimp only
  split
  · exact tells_bind (tells_report (by simp [LogValue.Says])) fun _ _ => tells_pure trivial
  · exact tells_bind (tells_report (by simp [LogValue.Says])) fun _ _ => tells_pure trivial

section

variable [NestingLimits]

/-- The layouts that are compared come from the files that are named. -/
theorem upgradeLayouts_tells {original updated contract : Option String}
    (hjson : NamedAsJson original updated) :
    (upgradeLayouts d original updated contract).Tells ToldOfJson fun _ => True := by
  obtain ⟨horiginal, hupdated⟩ := List.forall_mem_append.mp hjson
  have hgiven : ∀ {operand : Option String} {path : String}, operandPath operand = .ok path →
      path ∈ operand.toList := by
    intro operand path h
    cases operand with
    | none => cases h
    | some given => exact List.mem_singleton.mpr (Except.ok.inj h).symm
  refine tells_bind_lift fun path hpath => ?_
  refine tells_bind (layout_tells (horiginal path (hgiven hpath)) contract) fun before _ => ?_
  refine tells_bind_lift fun path hpath => ?_
  refine tells_bind (layout_tells (hupdated path (hgiven hpath)) contract) fun after _ => ?_
  exact tells_bind_lift fun _ _ => tells_pure trivial

theorem showUpgrade_tells {original updated contract : Option String}
    (hjson : NamedAsJson original updated) :
    (showUpgrade display d original updated contract).Tells ToldOfJson fun _ => True := by
  refine tells_bind (upgradeLayouts_tells hjson) fun l _ => tells_bind_lift fun format _ => ?_
  cases format with
  | none => exact tells_bind_lift fun _ _ => tells_pure trivial
  | some format => exact tells_pure trivial

theorem showErrors_tells (display : Display) (d : Directory) (errors : List UpgradeError) (code : Nat) :
    (showErrors display d errors code).Tells ToldOfJson fun _ => True := by
  refine tells_bind_lift fun format _ => ?_
  cases format with
  | some format => exact tells_pure trivial
  | none =>
    dsimp only
    split
    · exact tells_pure trivial
    · exact tells_bind_lift fun _ _ => tells_pure trivial

theorem checkUpgrade_tells {original updated contract : Option String}
    (hjson : NamedAsJson original updated) :
    (checkUpgrade display d original updated contract).Tells ToldOfJson fun _ => True := by
  refine tells_bind (upgradeLayouts_tells hjson) fun l _ => ?_
  obtain ⟨before, after⟩ := l
  refine tells_bind (judgeUpgrade_tells before after) fun errors _ => ?_
  have hshows := showErrors_tells display d errors (if errors.isEmpty then 0 else 1)
  dsimp only
  split
  · exact tells_bind (tells_report (by simp [LogValue.Says])) fun _ _ => hshows
  · exact hshows

theorem extractLayout_tells (buildInfo contract output : Option String)
    (format : Option DataFormat) :
    (extractLayout d buildInfo contract output format).Tells (fun _ => Document.IsFromJson)
      fun _ => True := by
  refine tells_bind_lift fun path _ => ?_
  refine tells_bind (extractedLayout_tells contract) fun l _ => ?_
  dsimp only
  split
  · exact tells_pure trivial
  · next file _ =>
    refine tells_bind_lift fun written _ => ?_
    split
    · refine tells_bind (tells_report ?_) fun _ _ => tells_pure trivial
      simp only [List.forall_mem_cons]
      exact ⟨Document.isFromJson_of_isText rfl, trivial, List.forall_mem_nil _⟩
    · exact tells_pure trivial

/-- **What is told by a comparison of JSON files.** -/
theorem Command.Compares.perform_tells {command : Command} {original updated : String}
    {contract : Option String} (h : command.Compares original updated contract)
    (hjson : NamedAsJson (some original) (some updated)) :
    (command.perform display d).Tells ToldOfJson fun _ => True := by
  cases h with
  | diff => exact showUpgrade_tells hjson
  | check => exact checkUpgrade_tells hjson

/-- **A command that reads JSON only**: an extraction always does, and a comparison does unless a file
has the name of a YAML file. -/
def Command.ReadsJson : Command → Prop
  | .extract _ _ _ _ => True
  | .diff original updated _ => NamedAsJson original updated
  | .check original updated _ => NamedAsJson original updated

/-- **What is told by a command that reads JSON comes from there.** -/
theorem Command.perform_tells {command : Command} (h : command.ReadsJson) :
    (command.perform display d).Tells (fun _ => Document.IsFromJson) fun _ => True := by
  cases command with
  | extract buildInfo contract output format => exact extractLayout_tells _ _ _ _
  | diff original updated contract =>
    exact (showUpgrade_tells h).mono (fun _ _ hd => hd.1) fun _ h => h
  | check original updated contract =>
    exact (checkUpgrade_tells h).mono (fun _ _ hd => hd.1) fun _ h => h

/-- What comes from JSON and does not lie too deep can be shown by every log. -/
theorem canShow_of_isFromJson {α : Type} {P : α → Prop} {work : Logged α}
    (h : work.Tells (fun _ => Document.IsFromJson) P)
    (hshallow : ∀ e ∈ work.events, ∀ field ∈ e.fields,
      field.2.Says fun d => d.height ≤ NestingLimits.telling) (setup : LogSetup) :
    setup.CanShow work.events := by
  intro e he _ field hfield
  have hboth := (h.events e he field hfield).and (hshallow e he field hfield)
  exact LogValue.Says.canBeTold (hboth.mono fun _ hd => Document.IsFromJson.canBeTold hd.1 hd.2)

/-! ## Events that stop a run -/

/-- The event at which showing stops is one that cannot be told. -/
theorem exists_of_fault_shown {setup : LogSetup} {events : List LogEvent} {fault : Fault}
    (h : (setup.shown events).fault = some fault) :
    ∃ e ∈ events, ¬e.CanBeTold ∧ setup.line? e = .error fault := by
  induction events with
  | nil => cases h
  | cons e rest ih =>
    rw [LogSetup.shown] at h
    cases hline : setup.line? e with
    | error found =>
      rw [hline] at h
      obtain rfl := Option.some.inj h
      refine ⟨e, List.mem_cons_self, fun htold => ?_, hline⟩
      obtain ⟨line, hshown⟩ := setup.exists_line? fun _ => htold
      rw [hline] at hshown
      cases hshown
    | ok line =>
      rw [hline] at h
      obtain ⟨e', he', hfault⟩ := ih h
      exact ⟨e', List.mem_cons_of_mem e he', hfault⟩

/-- **A run that is stopped at an event**: one that is to be shown and cannot be told, which is how the
run ends. Nothing has been printed and nothing is changed. -/
structure Outcome.StoppedAtEvent (setup : LogSetup) (d : Directory) (events : List LogEvent)
    (o : Outcome) : Prop where
  event : ∃ e ∈ events, ¬e.CanBeTold
    ∧ ∃ fault, setup.line? e = .error fault ∧ o.ending = (endFault fault).1
  stdout : o.stdout = []
  directory : o.directory = d

/-- What a command leaves whose events are all shown, whatever the log is. -/
theorem conclude_alike_of_shown {setup setup' : LogSetup} (d : Directory) {work : Logged Finish}
    (h : (setup.shown work.events).fault = none) (h' : (setup'.shown work.events).fault = none) :
    (conclude setup d work).Alike (conclude setup' d work) := by
  unfold conclude
  simp only [h, h']
  exact ⟨rfl, rfl, rfl, rfl⟩

theorem stoppedAtEvent_conclude {setup : LogSetup} (d : Directory) {work : Logged Finish}
    {fault : Fault} (h : (setup.shown work.events).fault = some fault) :
    (conclude setup d work).StoppedAtEvent setup d work.events := by
  obtain ⟨e, he, htold, hline⟩ := exists_of_fault_shown h
  unfold conclude
  simp only [h, finishOf]
  exact ⟨⟨e, he, htold, fault, hline, rfl⟩, rfl, rfl⟩

/-- **The log makes no other difference** than that an event of it stops what it belongs to. -/
theorem conclude_alike_or_stopped (setup setup' : LogSetup) (d : Directory) (work : Logged Finish) :
    (conclude setup d work).Alike (conclude setup' d work)
      ∨ (conclude setup d work).StoppedAtEvent setup d work.events
      ∨ (conclude setup' d work).StoppedAtEvent setup' d work.events := by
  cases h : (setup.shown work.events).fault with
  | some fault => exact .inr (.inl (stoppedAtEvent_conclude d h))
  | none =>
    cases h' : (setup'.shown work.events).fault with
    | some fault => exact .inr (.inr (stoppedAtEvent_conclude d h'))
    | none => exact .inl (conclude_alike_of_shown d h h')

/-! ## Runs -/

/-- **Invocations that differ in nothing but what they show of the log**: its level, its form, and
whether all of it is shown. -/
structure Invocation.SameButLog (i j : Invocation) : Prop where
  outputFormat : i.settings.outputFormat = j.settings.outputFormat
  color : i.settings.color = j.settings.color
  lacksOutputFormat : i.lacksOutputFormat = j.lacksOutputFormat
  command : i.command = j.command

/-- What an invocation has to do when its command is carried out. -/
def Invocation.work (i : Invocation) (d : Directory) : Logged Finish :=
  i.command.perform i.display d

theorem Invocation.SameButLog.work_eq {i j : Invocation} (h : i.SameButLog j) (d : Directory) :
    i.work d = j.work d := by
  unfold work display
  rw [h.outputFormat, h.color, h.lacksOutputFormat, h.command]

/-- **What is shown of the log does not matter for a run.** Two runs that differ in that alone print the
same, end in the same way and leave the same files behind, unless one of them is stopped at an event
that it is to show and that cannot be told. Where the files are JSON there is no such event, if nothing
in what is told lies deeper than can be told. -/
theorem run_alike_of_sameButLog (d : Directory) {environment environment' : List (String × String)}
    {words words' : List String} {i j : Invocation} (hi : invocation? environment words = some i)
    (hj : invocation? environment' words' = some j) (hlevel : ¬i.lacksLogLevel = true)
    (hlevel' : ¬j.lacksLogLevel = true) (hsame : i.SameButLog j) :
    ((run d environment words).Alike (run d environment' words')
        ∨ (run d environment words).StoppedAtEvent i.setup d (i.work d).events
        ∨ (run d environment' words').StoppedAtEvent j.setup d (j.work d).events)
      ∧ (i.command.ReadsJson →
        (∀ e ∈ (i.work d).events, ∀ field ∈ e.fields,
          field.2.Says fun shown => shown.height ≤ NestingLimits.telling) →
        (run d environment words).Alike (run d environment' words')) := by
  rw [run_of_invocation? hi, run_of_invocation? hj]
  obtain ⟨lines, hperform⟩ := i.exists_perform_eq hlevel d
  obtain ⟨lines', hperform'⟩ := j.exists_perform_eq hlevel' d
  have hwork : j.command.perform j.display d = i.command.perform i.display d := (hsame.work_eq d).symm
  rw [hperform, hperform', hwork, show j.work d = i.work d from hwork]
  have halike : (conclude i.setup d (i.work d)).Alike (conclude j.setup d (i.work d)) →
      Outcome.Alike { conclude i.setup d (i.work d) with lines := lines }
        { conclude j.setup d (i.work d) with lines := lines' } :=
    fun h => ⟨h.ending, h.stdout, h.errors, h.directory⟩
  refine ⟨?_, fun hjson hshallow => halike ?_⟩
  · obtain h | h | h := conclude_alike_or_stopped i.setup j.setup d (i.work d)
    · exact .inl (halike h)
    · exact .inr (.inl ⟨h.event, h.stdout, h.directory⟩)
    · exact .inr (.inr ⟨h.event, h.stdout, h.directory⟩)
  · have hshow := canShow_of_isFromJson (Command.perform_tells hjson) hshallow
    exact conclude_alike_of_shown d (i.setup.fault_shown_eq_none (hshow i.setup))
      (j.setup.fault_shown_eq_none (hshow j.setup))

end

theorem run_checkVault_alike :
    (run vaultDirectory [] (checkVault "build.json")).Alike
      (run vaultDirectory []
        (["--log-level", "DEBUG", "--log-format", "json", "-v"] ++ checkVault "build.json")) :=
  (run_alike_of_sameButLog vaultDirectory
    (i := ⟨{}, false, false, false, .check (some "build.json") (some "build.json") (some "Vault")⟩)
    (j := ⟨{ logLevel := .debug, logFormat := .json }, false, false, true,
      .check (some "build.json") (some "build.json") (some "Vault")⟩)
    (by decide +kernel) (by decide +kernel) (by decide) (by decide) ⟨rfl, rfl, rfl, rfl⟩).2
    (show NamedAsJson (some "build.json") (some "build.json") by decide +kernel) (by decide +kernel)

/-- The lines of build info in YAML, with a contract whose name is a list that holds itself. -/
def selfNamedLines : List String :=
  ["input: \x7b\x7d",
    "output:",
    "  sources:",
    "    vault.sol:",
    "      ast:",
    "        nodes:",
    "        - nodeType: ContractDefinition",
    "          id: 1",
    "          name: &name",
    "          - *name",
    "        - nodeType: ContractDefinition",
    "          name: Vault",
    "          linearizedBaseContracts:",
    "          - 1"]

/-- A directory with this build info, and with a snapshot of nothing. -/
def selfNamedDirectory : Directory :=
  ⟨[(["build.yaml"], .file (.text (selfNamedLines.flatMap fun line => line.toList ++ ['\n']))),
    (["new.json"], .file (.text
      (DataFormat.json.write (.record [("storage", .row []), ("types", .record [])])).chars))]⟩

/-- The command line that compares the two, with options in front. -/
def diffSelfNamed (options : List String) : List String :=
  options ++ ["diff", "build.yaml", "new.json", "--contract", "Vault"]

/-- **Not all that can be logged can be shown.** A comparison comes to its end with the log in JSON, and
does not when all of the log is shown, for the name of a contract that holds itself has no form in JSON.
Nor does it when the level of the log is left with nothing, which is found out when the log is set up. -/
theorem run_diffSelfNamed :
    (run selfNamedDirectory [] (diffSelfNamed ["--log-format", "json"])).ending.code? = some 0
      ∧ (run selfNamedDirectory [] (diffSelfNamed ["--log-format", "json", "--verbose"])).ending.code?
        = some 1
      ∧ (run selfNamedDirectory [] (diffSelfNamed ["--log-level=--"])).ending.code? = none := by
  decide +kernel

end CommandLine

end SlotSafe
