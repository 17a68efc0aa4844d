import SlotSafe.Json.Line
import SlotSafe.Proofs.StandIns
import SlotSafe.Proofs.WellKinded

/-!
# How comparisons end

A comparison reads two files that may hold anything. Most of what can be wrong with them is found out
and told: **where the files are JSON and hold snapshots or build info of the expected kinds, `check`
and `diff` end with the exit code 0 or 1** (`run_comparison_ends`). Nothing that a file of the expected
kinds lacks matters for that, nor whether it is there at all.

A step behaves (`Logged.Behaves`) if it fails in expected ways only and tells of nothing that cannot
be shown; what it succeeds with is known besides. Steps in a row behave when each of them does. What
is loaded is within bounds, since it was read from JSON, and it lies no deeper than is told of, compared
and shown (`Directory.AsExpected`), so that nothing fails at its depth.

The kinds do matter. The type key of a variable in a snapshot is looked up before it is known to be a
text, and the message about missing ones cannot be put together from anything else
(`run_compareOwner_untyped`).
-/

namespace SlotSafe

/-! ## Steps that behave -/

/-- A document that can be told of in an event. -/
def Document.CanBeTold [NestingLimits] (d : Document) : Prop := (LogValue.document d).CanBeTold

namespace Logged

variable {α β : Type} {N N' : LogLevel → Document → Prop} {P P' : α → Prop} {Q : β → Prop}

theorem Tells.mono {x : Logged α} (h : x.Tells N P) (hN : ∀ level d, N level d → N' level d)
    (hP : ∀ a, P a → P' a) : x.Tells N' P' :=
  ⟨fun e he field hfield => (h.events e he field hfield).mono (hN e.level),
    fun a ha => hP a (h.result a ha)⟩

variable [NestingLimits]

/-- What tells of nothing but what can be told has events that can be told. -/
theorem Tells.canBeTold {x : Logged α} (h : x.Tells (fun _ => Document.CanBeTold) P) :
    ∀ e ∈ x.events, e.CanBeTold :=
  fun e he field hfield => (h.events e he field hfield).canBeTold

/-- **A computation that behaves**: its events can be shown, it fails in expected ways only, and it
succeeds with nothing but what `P` says. -/
structure Behaves (P : α → Prop) (x : Logged α) : Prop where
  tells : x.Tells (fun _ => Document.CanBeTold) P
  fails : FailsOnly Fault.Expected x.result

theorem behaves_pure {a : α} (h : P a) : (pure a : Logged α).Behaves P := ⟨tells_pure h, .ok a⟩

theorem behaves_lift {x : Except Fault α} (hx : FailsOnly Fault.Expected x)
    (h : ∀ a, x = .ok a → P a) : (liftM x : Logged α).Behaves P :=
  ⟨tells_lift h, hx⟩

theorem behaves_throw {fault : Fault} (h : fault.Expected) : (throw fault : Logged α).Behaves P :=
  behaves_lift (.error h) nofun

theorem behaves_report {level : LogLevel} {component : Component} {event : String}
    {fields : List (String × LogValue)} (h : ∀ field ∈ fields, field.2.Says Document.CanBeTold) :
    (report level component event fields).Behaves fun _ => True :=
  ⟨tells_report h, .ok ()⟩

/-- **Steps in a row behave.** -/
theorem behaves_bind {x : Logged α} {f : α → Logged β} (hx : x.Behaves P)
    (hf : ∀ a, P a → (f a).Behaves Q) : (x >>= f).Behaves Q :=
  ⟨tells_bind hx.tells fun a ha => (hf a ha).tells,
    failsOnly_bind hx.fails fun a ha => (hf a (hx.tells.result a ha)).fails⟩

theorem Behaves.mono {x : Logged α} (h : x.Behaves P) (hP : ∀ a, P a → P' a) : x.Behaves P' :=
  ⟨⟨h.tells.events, fun a ha => hP a (h.tells.result a ha)⟩, h.fails⟩

end Logged

/-! ## Compilations -/

namespace Compilation

open Document

/-- The input and the output that build info has. -/
theorem exists_parts_of_isBuildInfo {info : Document} (h : isBuildInfo info = true) :
    ∃ input output, info.at? "input" = some input ∧ info.at? "output" = some output := by
  unfold isBuildInfo at h
  obtain ⟨hinput, houtput⟩ := Bool.and_eq_true_iff.mp h
  have hpart : ∀ name : String, ((info.at? name).bind table?).isSome = true →
      ∃ part, info.at? name = some part := by
    intro name hsome
    obtain ⟨table, htable⟩ := Option.isSome_iff_exists.mp hsome
    obtain ⟨part, hat, -⟩ := Option.bind_eq_some_iff.mp htable
    exact ⟨part, hat⟩
  obtain ⟨input, hinput⟩ := hpart "input" hinput
  obtain ⟨output, houtput⟩ := hpart "output" (by
    unfold at?
    split at houtput
    · next output hsome => exact Option.isSome_iff_exists.mpr ⟨_, hsome⟩
    · cases houtput)
  exact ⟨input, output, hinput, houtput⟩

/-- **Extracting from a compilation of the expected kinds behaves.** -/
theorem layout_behaves [NestingLimits] {height bound : Nat} {input output : Document}
    (hinput : isInput input = true) (houtput : isOutput output = true)
    (hwithin : output.Within height bound) (hheight : height ≤ NestingLimits.telling)
    (hdeep : 6 < height) (name : String) :
    (layout input output (.ofText name)).Behaves
      (Layout.Named fun name => name.Within (height - 6) bound) := by
  obtain ⟨hasked, hname⟩ := Query.isText_ofText name
  have htells : (layout input output (.ofText name)).Tells _ _ := layout_tells
    (N := fun _ name => name.Within (height - 6) bound) (fun s => .text s) hwithin.isJson
    (fun defs hdefs => namedBy_of_definitions hwithin (by omega) hdefs)
    (within_of_isText hasked _ _) (within_of_isText hname _ _)
  exact ⟨htells.mono (fun _ d hd => LogValue.canBeTold_of_within hd (by omega)) fun _ hl => hl,
    layout_failsOnly hinput houtput hwithin
      (Nat.le_trans hheight NestingLimits.telling_le_showing) hdeep name⟩

end Compilation

/-! ## Files -/

/-- **How deep lists and maps may lie inside one another** in what is told of, compared, and shown in
a form. -/
def OutputFormat.reach [NestingLimits] : OutputFormat → Nat
  | text => min NestingLimits.telling NestingLimits.comparing
  | json => min (NestingLimits.writing .json) (min NestingLimits.telling NestingLimits.comparing)
  | yaml => min (NestingLimits.writing .yaml) (min NestingLimits.telling NestingLimits.comparing)

theorem OutputFormat.reach_le [NestingLimits] (form : OutputFormat) :
    form.reach ≤ NestingLimits.telling ∧ form.reach ≤ NestingLimits.comparing := by
  cases form <;> simp only [reach] <;> omega

theorem OutputFormat.lt_reach [NestingLimits] (form : OutputFormat) : 7 < form.reach := by
  have htelling := NestingLimits.eight_le_telling
  have hcomparing := NestingLimits.eight_le_comparing
  have hwriting := NestingLimits.eight_le_writing
  cases form with
  | text => exact Nat.lt_min.mpr ⟨htelling, hcomparing⟩
  | json => exact Nat.lt_min.mpr ⟨hwriting .json, Nat.lt_min.mpr ⟨htelling, hcomparing⟩⟩
  | yaml => exact Nat.lt_min.mpr ⟨hwriting .yaml, Nat.lt_min.mpr ⟨htelling, hcomparing⟩⟩

/-- **Whether what a file holds is of the expected kinds**: a snapshot whose type keys are texts, build
info with an input and an output of the expected kinds, or nothing that is taken for either. -/
def Document.hasExpectedKinds (bold : Bool) (d : Document) : Bool :=
  if Compilation.isBuildInfo d then
    d.allAt "input" Compilation.isInput && d.allAt "output" Compilation.isOutput
  else Layout.isSnapshot bold d

/-- **What is not nested too deep is read as JSON**, or it is told what is wrong with it. -/
theorem DataFormat.read_json_failsOnly [NestingLimits] {reading : Nat} {chars : List Char}
    {undecoded : Option Text.Utf8.DecodeError}
    (h : ∀ isMap, read .json reading chars undecoded ≠ .error (.json (.tooDeep isMap))) :
    FailsOnly Fault.Expected (read .json reading chars undecoded) := by
  unfold read at h ⊢
  cases undecoded with
  | some e => exact .error rfl
  | none =>
    dsimp only at h ⊢
    cases hjson : Json.read reading chars with
    | ok found => exact .ok found
    | error e =>
      rw [hjson] at h
      cases e with
      | tooDeep isMap => exact absurd rfl (h isMap)
      | _ => exact .error rfl

namespace Directory

variable {d : Directory} {settings : Settings} {reading : Nat} {path : String}

theorem content_failsOnly (d : Directory) (path : String) :
    FailsOnly Fault.Expected (d.content path) := by
  unfold Directory.content
  cases d.destination path with
  | file content => exact .ok content
  | _ => exact .error rfl

variable [NestingLimits]

/-- **A file that is as expected**, if it is there: it is not named like a YAML file, it is not nested
deeper than JSON is read, and what it holds is of the expected kinds and not nested deeper than results
are shown. -/
structure AsExpected (d : Directory) (settings : Settings) (reading : Nat) (path : String) : Prop where
  json : ¬DataFormat.EndsAsYaml path
  nested : ∀ isMap, d.documentIn reading .json path ≠ .error (.json (.tooDeep isMap))
  kinds : ∀ found, d.documentIn reading .json path = .ok found →
    found.hasExpectedKinds settings.color = true
  height : ∀ found, d.documentIn reading .json path = .ok found →
    found.height ≤ settings.outputFormat.reach

/-- A file that is there is as expected if what it holds is, which can be computed. -/
theorem asExpected_of_any (hjson : ¬DataFormat.EndsAsYaml path)
    (h : (d.documentIn reading .json path).toOption.any (fun found =>
      found.hasExpectedKinds settings.color
        && decide (found.height ≤ settings.outputFormat.reach)) = true) :
    d.AsExpected settings reading path := by
  cases hfound : d.documentIn reading .json path with
  | error fault =>
    rw [hfound] at h
    cases h
  | ok document =>
    rw [hfound] at h
    obtain ⟨hkinds, hheight⟩ := Bool.and_eq_true_iff.mp h
    refine ⟨hjson, fun isMap hdeep => ?_, fun found hread => ?_, fun found hread => ?_⟩
    · rw [hfound] at hdeep
      cases hdeep
    · rw [hfound] at hread
      exact Except.ok.inj hread ▸ hkinds
    · rw [hfound] at hread
      exact Except.ok.inj hread ▸ of_decide_eq_true hheight

theorem documentIn_failsOnly
    (h : ∀ isMap, d.documentIn reading .json path ≠ .error (.json (.tooDeep isMap))) :
    FailsOnly Fault.Expected (d.documentIn reading .json path) := by
  unfold documentIn at h ⊢
  refine (content_failsOnly d path).bind fun content hcontent => ?_
  rw [hcontent] at h
  exact DataFormat.read_json_failsOnly h

theorem AsExpected.document_eq (h : d.AsExpected settings reading path) :
    d.document reading path
      = if d.exists? path then d.documentIn reading .json path else .error (.fileMissing path) := by
  unfold document
  rw [DataFormat.ofPath_eq_json h.json]

/-- **The layouts that a file may hold**: what stands in them lies at least three levels deep in the
file, and its places are texts where they must be. -/
structure Holds (settings : Settings) (l : Layout) : Prop where
  within : ∃ bound, l.Within (settings.outputFormat.reach - 3) bound
  srcs : settings.color = false → ∀ item ∈ l.items, item.src.isText = true

/-- Extracting the layout of a contract from what a file holds behaves. -/
theorem extraction_behaves {found input output : Document} {bound : Nat}
    (hwithin : found.Within settings.outputFormat.reach bound)
    (houtput : found.at? "output" = some output)
    (hinputs : Compilation.isInput input = true) (houtputs : Compilation.isOutput output = true)
    (name : String) :
    (Compilation.layout input output (.ofText name)).Behaves (Holds settings) := by
  have hreach := settings.outputFormat.reach_le
  have hdeep := settings.outputFormat.lt_reach
  refine (Compilation.layout_behaves hinputs houtputs (hwithin.of_at? houtput) (by omega) (by omega)
    name).mono fun l hl => ⟨⟨bound, ?_⟩, fun _ item hitem => ?_⟩
  · exact hl.within.mono (by omega) (Nat.le_refl bound)
  · exact hl.items item hitem _ (by simp)

/-- Reading what a file holds as a snapshot behaves. -/
theorem snapshot_behaves {found : Document} {bound : Nat}
    (hwithin : found.Within settings.outputFormat.reach bound) (hmap : found.isMap = true)
    (hkinds : Layout.isSnapshot settings.color found = true) :
    (liftM (Layout.ofDocument found) : Logged Layout).Behaves (Holds settings) :=
  Logged.behaves_lift (Layout.ofDocument_failsOnly hmap hkinds) fun _ hl =>
    ⟨⟨bound, Layout.within_ofDocument hwithin hl⟩, Layout.isText_src_of_ofDocument hkinds hl⟩

/-- **Loading a layout from a file that is as expected behaves.** -/
theorem layout_behaves (h : d.AsExpected settings reading path) (contract : Option String) :
    (d.layout reading path contract).Behaves (Holds settings) := by
  refine Logged.behaves_bind (P := fun found => d.documentIn reading .json path = .ok found)
    (Logged.behaves_lift ?_ ?_) fun found hfound => ?_
  · rw [h.document_eq]
    split
    · exact documentIn_failsOnly h.nested
    · exact .error rfl
  · intro found hfound
    rw [h.document_eq] at hfound
    split at hfound
    · exact hfound
    · cases hfound
  obtain ⟨bound, hwithin⟩ := within_of_documentIn hfound
  have hwithin := hwithin.of_height_le (h.height found hfound)
  have hkinds := h.kinds found hfound
  unfold Document.hasExpectedKinds at hkinds
  split
  · next hinfo =>
    rw [if_pos hinfo] at hkinds
    obtain ⟨input, output, hinput, houtput⟩ := Compilation.exists_parts_of_isBuildInfo hinfo
    obtain ⟨hinputs, houtputs⟩ := Bool.and_eq_true_iff.mp hkinds
    split
    · next name =>
      rw [Document.member_eq_ok_iff.mpr hinput, Document.member_eq_ok_iff.mpr houtput]
      split
      · exact Logged.behaves_bind (P := fun _ => False) (Logged.behaves_throw rfl) nofun
      · exact extraction_behaves hwithin houtput (Document.of_allAt hinputs hinput)
          (Document.of_allAt houtputs houtput) name
    · exact Logged.behaves_throw rfl
  · next hinfo =>
    rw [if_neg hinfo] at hkinds
    cases hmap : found.isMap with
    | false => exact Logged.behaves_bind (P := fun _ => False) (Logged.behaves_throw rfl) nofun
    | true =>
      refine Logged.behaves_bind (Logged.behaves_report ?_) fun _ _ =>
        snapshot_behaves hwithin hmap hkinds
      exact List.forall_mem_singleton.mpr (LogValue.canBeTold_text path)

/-- Two layouts that files may hold have the same bounds. -/
theorem Holds.exists_bound {original updated : Layout}
    (horiginal : Holds settings original) (hupdated : Holds settings updated) :
    ∃ bound, original.Within (settings.outputFormat.reach - 3) bound
      ∧ updated.Within (settings.outputFormat.reach - 3) bound := by
  obtain ⟨bound, hwithin⟩ := horiginal.within
  obtain ⟨bound', hwithin'⟩ := hupdated.within
  exact ⟨max bound bound', hwithin.mono (Nat.le_refl _) (Nat.le_max_left bound bound'),
    hwithin'.mono (Nat.le_refl _) (Nat.le_max_right bound bound')⟩

end Directory

/-! ## Comparisons -/

namespace CommandLine

open Directory Logged

variable {d : Directory} {display : Display} {settings : Settings} {original updated : String}
  {contract : Option String}

/-- **What tells the result of a comparison**: it has come to its end, with the exit code 0 or 1. -/
def Finish.IsVerdict (finish : Finish) : Prop := finish.status = .ok 0 ∨ finish.status = .ok 1

/-- A comparison of the layouts in two files. -/
inductive Command.Compares (original updated : String) (contract : Option String) : Command → Prop
  | diff : Compares original updated contract (.diff (some original) (some updated) contract)
  | check : Compares original updated contract (.check (some original) (some updated) contract)

theorem Display.format?_failsOnly (display : Display) :
    FailsOnly Fault.Expected display.format? := by
  unfold Display.format?
  split
  · exact .error rfl
  · cases display.form <;> exact .ok _

section

variable [NestingLimits]

/-- What is not nested too deep for a form is not nested too deep for its format. -/
theorem Display.reach_le_of_format? {format : DataFormat}
    (h : display.format? = .ok (some format)) :
    display.form.reach ≤ NestingLimits.writing format := by
  unfold Display.format? at h
  split at h
  · cases h
  · obtain ⟨form, lacksForm, color⟩ := display
    cases form with
    | text => cases h
    | json =>
      cases h
      exact Nat.min_le_left _ _
    | yaml =>
      cases h
      exact Nat.min_le_left _ _

/-- **A document within bounds is shown** to its end. -/
theorem status_finishDocument {shown : Document} {height bound : Nat} (h : shown.Within height bound)
    {format : DataFormat} (hheight : height ≤ NestingLimits.writing format) (d : Directory)
    (code : Nat) :
    (finishDocument d format shown code).status = .ok code := by
  unfold finishDocument
  dsimp only
  rw [Writing.fault_eq_none (DataFormat.complete_write h hheight)]

/-- **Loading two layouts to compare behaves.** -/
theorem upgradeLayouts_behaves (horiginal : d.AsExpected settings 1 original)
    (hupdated : d.AsExpected settings 2 updated) (contract : Option String) :
    (upgradeLayouts d (some original) (some updated) contract).Behaves
      fun l => Holds settings l.1 ∧ Holds settings l.2 := by
  unfold upgradeLayouts operandPath
  rw [lift_ok_bind]
  refine behaves_bind (layout_behaves horiginal contract) fun before hbefore => ?_
  rw [lift_ok_bind]
  refine behaves_bind (layout_behaves hupdated contract) fun after hafter => ?_
  obtain ⟨bound, hwithin⟩ := hbefore.within
  have hreach := settings.outputFormat.reach_le
  have hdeep := settings.outputFormat.lt_reach
  rw [hwithin.mustCompare_eq_ok (by omega) after, lift_ok_bind]
  exact behaves_pure ⟨hbefore, hafter⟩

/-- **Showing what an upgrade does behaves.** -/
theorem showUpgrade_behaves (horiginal : d.AsExpected settings 1 original)
    (hupdated : d.AsExpected settings 2 updated) (hform : display.form = settings.outputFormat) :
    (showUpgrade display d (some original) (some updated) contract).Behaves Finish.IsVerdict := by
  refine behaves_bind (upgradeLayouts_behaves horiginal hupdated contract) fun l hl => ?_
  obtain ⟨before, after⟩ := l
  obtain ⟨bound, hbefore, hafter⟩ := hl.1.exists_bound hl.2
  have hreach := settings.outputFormat.reach_le
  have hdeep := settings.outputFormat.lt_reach
  refine behaves_bind (P := fun format => display.format? = .ok format)
    (behaves_lift display.format?_failsOnly fun _ h => h) fun format hformat => ?_
  cases format with
  | none =>
    have hshowing := NestingLimits.telling_le_showing
    obtain ⟨text, htext⟩ := Report.exists_operationsText_of_within hbefore hafter (by omega)
    change (liftM (Report.operationsText before after _) >>= _ : Logged Finish).Behaves _
    rw [htext, lift_ok_bind]
    exact behaves_pure (.inl rfl)
  | some format =>
    have hformat := Display.reach_le_of_format? hformat
    rw [hform] at hformat
    exact behaves_pure (.inl (status_finishDocument
      (Report.within_operationsDocument hbefore hafter) (by omega) d 0))

/-- Judging an upgrade comes to its unsafe changes, and its events are plain. -/
theorem judgeUpgrade_behaves (before after : Layout) :
    (judgeUpgrade before after).Behaves fun errors => errors = Upgrade.errors before after := by
  unfold judgeUpgrade
  dsimp only
  split
  · exact behaves_bind (behaves_report (by simp [LogValue.Says])) fun _ _ => behaves_pure rfl
  · exact behaves_bind (behaves_report (by simp [LogValue.Says])) fun _ _ => behaves_pure rfl

/-- **Showing the unsafe changes of an upgrade behaves**, with any exit code. -/
theorem showErrors_behaves (d : Directory) {before after : Layout} (hbefore : Holds settings before)
    (hafter : Holds settings after) (hform : display.form = settings.outputFormat)
    (hcolor : display.color = settings.color) {code : Nat} (hcode : code = 0 ∨ code = 1) :
    (showErrors display d (Upgrade.errors before after) code).Behaves Finish.IsVerdict := by
  obtain ⟨bound, hbefore', hafter'⟩ := hbefore.exists_bound hafter
  have hreach := settings.outputFormat.reach_le
  have hdeep := settings.outputFormat.lt_reach
  have hverdict : ∀ {finish : Finish}, finish.status = .ok code → finish.IsVerdict := by
    intro finish hstatus
    obtain rfl | rfl := hcode
    · exact .inl hstatus
    · exact .inr hstatus
  refine behaves_bind (P := fun format => display.format? = .ok format)
    (behaves_lift display.format?_failsOnly fun _ h => h) fun format hformat => ?_
  cases format with
  | some format =>
    have hformat := Display.reach_le_of_format? hformat
    rw [hform] at hformat
    exact behaves_pure (hverdict (status_finishDocument
      (Report.within_checkDocument hbefore' hafter') (by omega) d code))
  | none =>
    dsimp only
    split
    · exact behaves_pure (hverdict rfl)
    · have hplaces : display.color = false → (∀ item ∈ before.items, item.src.isText = true)
          ∧ ∀ item ∈ after.items, item.src.isText = true := fun hplain =>
        ⟨hbefore.srcs (hcolor ▸ hplain), hafter.srcs (hcolor ▸ hplain)⟩
      have hshowing := NestingLimits.telling_le_showing
      obtain ⟨text, htext⟩ :=
        Report.exists_errorText_of_within hbefore' hafter' (by omega) hplaces
      rw [htext, lift_ok_bind]
      exact behaves_pure (hverdict rfl)

/-- **Telling whether an upgrade is safe behaves.** -/
theorem checkUpgrade_behaves (horiginal : d.AsExpected settings 1 original)
    (hupdated : d.AsExpected settings 2 updated) (hform : display.form = settings.outputFormat)
    (hcolor : display.color = settings.color) :
    (checkUpgrade display d (some original) (some updated) contract).Behaves Finish.IsVerdict := by
  refine behaves_bind (upgradeLayouts_behaves horiginal hupdated contract) fun l hl => ?_
  obtain ⟨before, after⟩ := l
  refine behaves_bind (judgeUpgrade_behaves before after) fun errors herrors => ?_
  subst herrors
  have hcode : ∀ isSafe : Bool, (if isSafe then 0 else 1) = 0 ∨ (if isSafe then 0 else 1) = 1 := by
    decide
  have hshows := showErrors_behaves d hl.1 hl.2 hform hcolor
    (hcode (Upgrade.errors before after).isEmpty)
  dsimp only
  split
  · exact behaves_bind (behaves_report (by simp [LogValue.Says])) fun _ _ => hshows
  · exact hshows

/-- **A comparison of files that are as expected behaves.** -/
theorem Command.Compares.perform_behaves {command : Command}
    (hcommand : command.Compares original updated contract)
    (horiginal : d.AsExpected settings 1 original) (hupdated : d.AsExpected settings 2 updated)
    (hform : display.form = settings.outputFormat) (hcolor : display.color = settings.color) :
    (command.perform display d).Behaves Finish.IsVerdict := by
  cases hcommand with
  | diff => exact showUpgrade_behaves horiginal hupdated hform
  | check => exact checkUpgrade_behaves horiginal hupdated hform hcolor

/-! ## Runs -/

/-- **What behaves ends with the exit code 0 or 1**, under every setup of the log. -/
theorem ending_conclude_of_behaves {work : Logged Finish} (h : work.Behaves Finish.IsVerdict)
    (setup : LogSetup) (d : Directory) :
    (conclude setup d work).ending = .exit 0 ∨ (conclude setup d work).ending = .exit 1 := by
  have hshown : (setup.shown work.events).fault = none :=
    setup.fault_shown_eq_none fun e he _ => h.tells.canBeTold e he
  obtain ⟨fault, hfault, hending, -⟩ | ⟨finish, hresult, hending, -⟩ := conclude_cases setup d work
  · rw [hshown] at hfault
    obtain hfault | hfault := hfault
    · cases hfault
    · have hexpected : fault.isExpected = true := h.fails fault hfault
      unfold endFault at hending
      rw [if_pos hexpected] at hending
      exact .inr hending
  · unfold Finish.ending at hending
    obtain hstatus | hstatus := h.tells.result finish hresult
    · rw [hstatus] at hending
      exact .inl hending
    · rw [hstatus] at hending
      exact .inr hending

/-- **Comparisons of files that are as expected end with the exit code 0 or 1**, whatever the files
hold within that, and whatever contract is asked for. -/
theorem run_comparison_ends (d : Directory) {environment : List (String × String)}
    {words : List String} {i : Invocation} (hasked : invocation? environment words = some i)
    (hlevel : ¬i.lacksLogLevel = true) (hcommand : i.command.Compares original updated contract)
    (horiginal : d.AsExpected i.settings 1 original) (hupdated : d.AsExpected i.settings 2 updated) :
    (run d environment words).ending = .exit 0 ∨ (run d environment words).ending = .exit 1 := by
  rw [run_of_invocation? hasked]
  obtain ⟨lines, hperform⟩ := i.exists_perform_eq hlevel d
  rw [hperform]
  exact ending_conclude_of_behaves (hcommand.perform_behaves horiginal hupdated rfl rfl) i.setup d

end

theorem run_checkVault_ends :
    (run vaultDirectory [] (checkVault "build.json")).ending = .exit 0
      ∨ (run vaultDirectory [] (checkVault "build.json")).ending = .exit 1 := by
  have hexpected : ∀ reading, reading = 1 ∨ reading = 2 →
      vaultDirectory.AsExpected {} reading "build.json" := by
    rintro reading (rfl | rfl) <;> exact asExpected_of_any (by decide +kernel) (by decide +kernel)
  exact run_comparison_ends vaultDirectory
    (i := ⟨{}, false, false, false, .check (some "build.json") (some "build.json") (some "Vault")⟩)
    (by decide +kernel) (by decide) .check (hexpected 1 (.inl rfl)) (hexpected 2 (.inr rfl))

/-- A snapshot of one variable. -/
def ownerSnapshot (type : Document) : Document :=
  .record [("storage", .row [.record [("contract", .text "Vault"), ("label", .text "owner"),
    ("type", type), ("src", .text "vault.sol:1")]]),
    ("types", .record [("t_address", .record [("label", .text "address")])])]

/-- A directory with a snapshot of a variable without a type, and with one of a variable with a
type. -/
def untypedDirectory : Directory :=
  ⟨[(["old.json"], .file (.text (Json.line (ownerSnapshot .null)).chars)),
    (["new.json"], .file (.text (Json.line (ownerSnapshot (.text "t_address"))).chars))]⟩

/-- The command line of a comparison of the two. -/
def compareOwner (command : String) : List String :=
  [command, "old.json", "new.json", "--contract", "Vault"]

/-- **Some comparisons of files that hold JSON are stopped** by a fault that was not expected. -/
theorem run_compareOwner_untyped :
    (untypedDirectory.documentIn 1 .json "old.json").toOption.isSome = true
      ∧ (untypedDirectory.documentIn 2 .json "new.json").toOption.isSome = true
      ∧ (run untypedDirectory [] (compareOwner "check")).ending.code? = none
      ∧ (run untypedDirectory [] (compareOwner "diff")).ending.code? = none := by
  decide +kernel

end CommandLine

end SlotSafe
