import SlotSafe.CommandLine.Run
import SlotSafe.Proofs.ExtractedTexts
import SlotSafe.Proofs.Showing

/-!
# Runs that look alike

Which events are shown does not matter for the outcome of a run, but that one of them cannot be
shown does: it ends the run. So two computations are alike (`Logged.Alike`) when they have the same
result and, under every setup of the log, the same fault stops the showing of their events. Steps in
a row carry this along, and where all events are plain it is a matter of the results alone.

**What a command leaves after one of two alike computations is what it leaves after the other**
(`conclude_alike`), but for the lines of the log. In particular a comparison does not depend on
which of two files a layout is loaded from, when loading it from the one and from the other is alike
(`Command.Swaps.perform_alike`).
-/

namespace SlotSafe

/-! ## Events that can be shown -/

variable [NestingLimits]

namespace LogValue

/-- What says nothing but what can be told can be told itself. -/
theorem Says.canBeTold {v : LogValue} (h : v.Says fun d => (document d).CanBeTold) : v.CanBeTold := by
  cases v with
  | count n => exact canBeTold_count n
  | document d => exact h

theorem canBeTold_of_isText {d : Document} (h : d.isText = true) : (document d).CanBeTold := by
  obtain ⟨s, rfl⟩ := Document.exists_text_of_isText h
  exact canBeTold_text s

theorem IsPlain.canBeTold {v : LogValue} (h : v.IsPlain) : v.CanBeTold :=
  Says.canBeTold (Says.mono h fun _ => canBeTold_of_isText)

end LogValue

namespace LogSetup

theorem fault_shown_of_isPlain (s : LogSetup) {events : List LogEvent}
    (h : ∀ e ∈ events, ∀ field ∈ e.fields, field.2.IsPlain) : (s.shown events).fault = none :=
  s.fault_shown_eq_none fun e he _ field hfield => (h e he field hfield).canBeTold

/-- **The first event that cannot be shown** stops the showing of all that follow. -/
theorem fault_shown_append (s : LogSetup) (before after : List LogEvent) :
    (s.shown (before ++ after)).fault = (s.shown before).fault.or (s.shown after).fault := by
  induction before with
  | nil => rfl
  | cons e rest ih =>
    rw [List.cons_append, shown, shown]
    cases s.line? e with
    | error fault => rfl
    | ok line => exact ih

end LogSetup

/-! ## Computations that are alike -/

namespace Logged

variable {α β : Type} {x y : Logged α}

/-- **Computations that are alike**: they have the same result, and the same fault stops the showing
of their events. -/
structure Alike (x y : Logged α) : Prop where
  result : x.result = y.result
  fault : ∀ s : LogSetup, (s.shown x.events).fault = (s.shown y.events).fault

theorem Alike.refl (x : Logged α) : x.Alike x := ⟨rfl, fun _ => rfl⟩

/-- Where all events are plain, the results decide. -/
theorem IsPlain.alike (hx : x.IsPlain) (hy : y.IsPlain) (h : x.result = y.result) : x.Alike y :=
  ⟨h, fun s => (s.fault_shown_of_isPlain hx).trans (s.fault_shown_of_isPlain hy).symm⟩

/-- **Steps in a row are alike** when each of them is. -/
theorem Alike.bind {f g : α → Logged β} (h : x.Alike y) (hf : ∀ a, (f a).Alike (g a)) :
    (x >>= f).Alike (y >>= g) := by
  obtain ⟨events, result⟩ := x
  obtain ⟨events', result'⟩ := y
  obtain ⟨hresult, hfault⟩ := h
  obtain rfl : result = result' := hresult
  show (Logged.bind _ f).Alike (Logged.bind _ g)
  cases result with
  | error fault => exact ⟨rfl, hfault⟩
  | ok a =>
    refine ⟨(hf a).result, fun s => ?_⟩
    -- a fault in the events of the first step comes before any in those of the second, on both sides
    show (s.shown (events ++ (f a).events)).fault = (s.shown (events' ++ (g a).events)).fault
    rw [s.fault_shown_append, s.fault_shown_append, hfault s, (hf a).fault s]

end Logged

namespace CommandLine

/-! ## Outcomes that are alike -/

/-- **Outcomes that differ in nothing but the lines of the log.** -/
structure Outcome.Alike (o o' : Outcome) : Prop where
  ending : o.ending = o'.ending
  stdout : o.stdout = o'.stdout
  errors : o.errors = o'.errors
  directory : o.directory = o'.directory

theorem conclude_alike (setup : LogSetup) (d : Directory) {x y : Logged Finish} (h : x.Alike y) :
    (conclude setup d x).Alike (conclude setup d y) := by
  unfold conclude
  simp only [h.fault setup, h.result]
  exact ⟨rfl, rfl, rfl, rfl⟩

/-- How a command ends that has come to its end. -/
def Finish.ending (finish : Finish) : Ending :=
  match finish.status with
  | .ok code => .exit code
  | .error fault => (endFault fault).1

/-- **What a command leaves**: where a fault has stopped it, nothing is changed; else it leaves what
it has done. -/
theorem conclude_cases (setup : LogSetup) (d : Directory) (work : Logged Finish) :
    (∃ fault, ((setup.shown work.events).fault = some fault ∨ work.result = .error fault)
      ∧ (conclude setup d work).ending = (endFault fault).1
      ∧ (conclude setup d work).directory = d)
    ∨ ∃ finish, work.result = .ok finish ∧ (conclude setup d work).ending = finish.ending
      ∧ (conclude setup d work).directory = finish.directory := by
  unfold conclude
  cases hshown : (setup.shown work.events).fault with
  | some fault =>
    simp only [hshown, finishOf]
    exact .inl ⟨fault, .inl rfl, rfl, trivial⟩
  | none =>
    cases hresult : work.result with
    | error fault =>
      simp only [hshown, finishOf]
      exact .inl ⟨fault, .inr rfl, rfl, trivial⟩
    | ok finish =>
      simp only [hshown, finishOf]
      refine .inr ⟨finish, rfl, ?_, rfl⟩
      unfold Finish.ending
      cases finish.status <;> rfl

theorem endFault_ne_exit_zero (fault : Fault) : (endFault fault).1 ≠ .exit 0 := by
  intro hend
  unfold endFault at hend
  split at hend <;> cases hend

theorem Finish.ending_eq_exit_zero_iff {finish : Finish} :
    finish.ending = .exit 0 ↔ finish.status = .ok 0 := by
  unfold Finish.ending
  cases finish.status with
  | error fault => simp [endFault_ne_exit_zero]
  | ok code => simp

/-- **A command that ends with the exit code 0** has come to its end, and leaves what it then left. -/
theorem exists_finish_of_exit_zero {setup : LogSetup} {d : Directory} {work : Logged Finish}
    (h : (conclude setup d work).ending = .exit 0) :
    ∃ finish, work.result = .ok finish ∧ finish.status = .ok 0
      ∧ (conclude setup d work).directory = finish.directory := by
  obtain ⟨fault, -, hending, -⟩ | ⟨finish, hresult, hending, hdirectory⟩ :=
    conclude_cases setup d work
  · exact absurd (hending.symm.trans h) (endFault_ne_exit_zero fault)
  · exact ⟨finish, hresult, Finish.ending_eq_exit_zero_iff.mp (hending.symm.trans h), hdirectory⟩

namespace Invocation

/-- How the results of an invocation are to be shown. -/
def display (i : Invocation) : Display :=
  ⟨i.settings.outputFormat, i.lacksOutputFormat, i.settings.color⟩

/-- The setup of the log under which the command of an invocation is carried out. -/
def setup (i : Invocation) : LogSetup :=
  let s : LogSetup := ⟨i.settings.logLevel.number, i.settings.logFormat.choice⟩
  if i.verbose then s.showAll else s

/-- An invocation leaves what its command leaves, with lines of its own in the log. -/
theorem exists_perform_eq (i : Invocation) (h : ¬i.lacksLogLevel = true) (d : Directory) :
    ∃ lines, i.perform d
      = { conclude i.setup d (i.command.perform i.display d) with lines := lines } := by
  unfold perform
  rw [if_neg h]
  exact ⟨_, rfl⟩

/-- **An invocation that ends with the exit code 0** has carried out its command. -/
theorem exists_finish_of_exit_zero {i : Invocation} {d : Directory}
    (h : (i.perform d).ending = .exit 0) :
    ∃ finish, (i.command.perform i.display d).result = .ok finish ∧ finish.status = .ok 0
      ∧ (i.perform d).directory = finish.directory := by
  by_cases hlevel : i.lacksLogLevel = true
  · unfold perform at h
    rw [if_pos hlevel] at h
    cases h
  · obtain ⟨lines, hperform⟩ := i.exists_perform_eq hlevel d
    rw [hperform] at h ⊢
    exact CommandLine.exists_finish_of_exit_zero h

end Invocation

/-! ## Comparisons with another file -/

/-- **One file in place of another**, as the original or as the updated file of a comparison of the
layouts of a contract. -/
inductive Command.Swaps (file file' contract : String) : Command → Command → Prop
  | diffOriginal (updated : Option String) : Swaps file file' contract
    (.diff (some file) updated (some contract)) (.diff (some file') updated (some contract))
  | diffUpdated (original : Option String) : Swaps file file' contract
    (.diff original (some file) (some contract)) (.diff original (some file') (some contract))
  | checkOriginal (updated : Option String) : Swaps file file' contract
    (.check (some file) updated (some contract)) (.check (some file') updated (some contract))
  | checkUpdated (original : Option String) : Swaps file file' contract
    (.check original (some file) (some contract)) (.check original (some file') (some contract))

variable {d : Directory} {file file' contract : String}

section

variable (h : ∀ reading, reading ≠ 0 →
  (d.layout reading file (some contract)).Alike (d.layout reading file' (some contract)))
include h

theorem upgradeLayouts_alike_original (updated : Option String) :
    (upgradeLayouts d (some file) updated (some contract)).Alike
      (upgradeLayouts d (some file') updated (some contract)) := by
  unfold upgradeLayouts operandPath
  rw [Logged.lift_ok_bind, Logged.lift_ok_bind]
  exact .bind (h 1 (by decide)) fun _ => .refl _

theorem upgradeLayouts_alike_updated (original : Option String) :
    (upgradeLayouts d original (some file) (some contract)).Alike
      (upgradeLayouts d original (some file') (some contract)) := by
  unfold upgradeLayouts
  refine .bind (.refl _) fun path => ?_
  refine .bind (.refl _) fun before => ?_
  unfold operandPath
  rw [Logged.lift_ok_bind, Logged.lift_ok_bind]
  exact .bind (h 2 (by decide)) fun _ => .refl _

/-- **A comparison with another file is alike** when loading the layout from it is. -/
theorem Command.Swaps.perform_alike {command command' : Command}
    (hswaps : Swaps file file' contract command command') (display : Display) :
    (command.perform display d).Alike (command'.perform display d) := by
  cases hswaps with
  | diffOriginal updated => exact .bind (upgradeLayouts_alike_original h updated) fun _ => .refl _
  | diffUpdated original => exact .bind (upgradeLayouts_alike_updated h original) fun _ => .refl _
  | checkOriginal updated => exact .bind (upgradeLayouts_alike_original h updated) fun _ => .refl _
  | checkUpdated original => exact .bind (upgradeLayouts_alike_updated h original) fun _ => .refl _

theorem Invocation.perform_alike {i i' : Invocation}
    (hswaps : Command.Swaps file file' contract i.command i'.command)
    (hi : i' = { i with command := i'.command }) : (i.perform d).Alike (i'.perform d) := by
  by_cases hlevel : i.lacksLogLevel = true
  · have hlevel' : i'.lacksLogLevel = true := by rw [hi, hlevel]
    unfold perform
    rw [if_pos hlevel, if_pos hlevel']
    exact ⟨rfl, rfl, rfl, rfl⟩
  · have hlevel' : ¬i'.lacksLogLevel = true := by rwa [hi]
    obtain ⟨lines, hperform⟩ := i.exists_perform_eq hlevel d
    obtain ⟨lines', hperform'⟩ := i'.exists_perform_eq hlevel' d
    have hsetup : i'.setup = i.setup := by rw [hi]; rfl
    have hdisplay : i'.display = i.display := by rw [hi]; rfl
    rw [hperform, hperform', hsetup, hdisplay]
    obtain ⟨hending, hstdout, herrors, hdirectory⟩ :=
      conclude_alike i.setup d (hswaps.perform_alike h i.display)
    exact ⟨hending, hstdout, herrors, hdirectory⟩

end

end CommandLine

end SlotSafe
