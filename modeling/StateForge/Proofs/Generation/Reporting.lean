import StateForge.Proofs.Generation.Outcome

/-!
# Options that only report, and options that only check

Two of the options of a generation should have no say in what is generated. `verbose` makes it tell
more, also in the middle of a write, where old and new lines are compared. `unchecked` leaves
validation out, which should not matter to a machine that would pass.

* `GenerateOutcome.quieted` takes the details out of what an outcome tells. Each step of a generation
  that is not verbose does what the verbose one does, quieted: `Writer.write_quiet` for one file,
  `Writer.emit_quiet` for all files, `GenerateOptions.generate_quiet` for the whole.
* `GenerateOptions.generate_unchecked` compares a generation with the one that leaves validation out.
-/

set_option autoImplicit false

namespace StateForge

/-! ## Details -/

/-- Is it one of the notices that only a verbose generation gives? -/
def Notice.isDetail : Notice → Bool
  | .model _ => true
  | .diff _ => true
  | _ => false

/-- The outcome without the details in its notices. -/
def GenerateOutcome.quieted (o : GenerateOutcome) : GenerateOutcome :=
  { o with notices := o.notices.filter fun n => !n.isDetail }

theorem GenerateOutcome.quieted_prepend (notices : List Notice) (o : GenerateOutcome) :
    (o.prepend notices).quieted
      = o.quieted.prepend (notices.filter fun n => !n.isDetail) := by
  simp only [quieted, prepend, List.filter_append]

/-- Nothing is left of a diff. -/
theorem filter_diffNotices (shown : List Text) :
    (diffNotices shown).filter (fun n => !n.isDetail) = [] := by
  rw [diffNotices]
  split <;> rfl

/-- What happened to a file is told in any case. -/
theorem WriteStatus.isDetail_notice (status : WriteStatus) (path : Text) :
    (status.notice path).isDetail = false := by
  rw [notice]
  split <;> rfl

/-! ## A generation that tells less -/

/-- **Whether the changes of a file are shown does not matter to the file.** -/
theorem Writer.write_quiet (w : Writer) (fs : FileSystem) (a : Artifact) :
    { w with verbose := false }.write fs a = { w.write fs a with shown := [] } := by
  have hpath : { w with verbose := false }.path a = w.path a := rfl
  have hover : { w with verbose := false }.overwrite fs a = w.overwrite fs a := rfl
  rw [write, write, hpath, hover]
  cases fs.readLines (w.path a) with
  | error e =>
    simp only
    split <;> rfl
  | ok old =>
    simp only
    split <;> rfl

/-- The files are written one after the other, each as it would be by a verbose writer. -/
theorem Writer.emit_quiet (w : Writer) (artifacts : List Artifact) (fs : FileSystem)
    (stats : GenerateStats) :
    { w with verbose := false }.emit fs stats artifacts = (w.emit fs stats artifacts).quieted := by
  induction artifacts generalizing fs stats with
  | nil => rfl
  | cons a rest ih =>
    rw [emit, emit, write_quiet]
    cases hresult : (w.write fs a).result with
    | error e =>
      simp only [GenerateOutcome.quieted, filter_diffNotices]
      rfl
    | ok status =>
      have htold : (diffNotices (w.write fs a).shown ++ [status.notice (w.path a)]).filter
          (fun n => !n.isDetail) = [status.notice (w.path a)] := by
        rw [List.filter_append, filter_diffNotices, List.filter_cons_of_pos (by
          rw [status.isDetail_notice]; rfl)]
        rfl
      simp only [ih, GenerateOutcome.quieted_prepend, htold]
      rfl

namespace GenerateOptions

/-- **A generation that is not verbose does what the verbose one does**, and tells the same, less the
details. -/
theorem generate_quiet (o : GenerateOptions) (fs : FileSystem) :
    { o with verbose := false }.generate fs = (o.generate fs).quieted := by
  have hread : ∀ m : Machine,
      ([Notice.parsed o.input m.states.length] ++ if o.verbose then [Notice.model m] else []).filter
        (fun n => !n.isDetail) = [.parsed o.input m.states.length] := by
    intro m
    cases o.verbose <;> rfl
  rw [generate, generate]
  cases Machine.load fs o.input with
  | error e => rfl
  | ok m =>
    have hwriter : { o with verbose := false }.writer = { o.writer with verbose := false } := rfl
    have hartifacts : { o with verbose := false }.artifacts m = o.artifacts m := rfl
    simp only [generateFrom]
    rw [hwriter, hartifacts, Writer.emit_quiet]
    split
    · simp only [GenerateOutcome.quieted, hread]
      rfl
    · simp only [GenerateOutcome.quieted_prepend, hread]
      rfl

/-! ## A generation that checks less -/

/-- **A machine that passes validation is not affected by it**, and neither is an input that no
machine can be read from. -/
theorem generate_unchecked {o : GenerateOptions} {fs : FileSystem}
    (hvalid : ∀ m, Machine.load fs o.input = .ok m → m.violations = []) :
    { o with unchecked := true }.generate fs = { o with unchecked := false }.generate fs := by
  rw [generate, generate]
  cases hload : Machine.load fs o.input with
  | error e => rfl
  | ok m =>
    simp only [generateFrom, hvalid m hload]
    rfl

end GenerateOptions

/-- **Reporting and checking do not influence the result.** A generation that is verbose and one that
is not end in the same file system, with the same numbers or the same error; the one that is not
verbose tells what the other tells, without the details. And for an input whose machine passes
validation, a generation with validation and one without it have the same outcome altogether, what
they tell included. -/
theorem options_without_influence (o : GenerateOptions) (fs : FileSystem) :
    let loud := { o with verbose := true }.generate fs
    let quiet := { o with verbose := false }.generate fs
    (quiet.fileSystem = loud.fileSystem ∧ quiet.result = loud.result ∧
      quiet.notices = loud.notices.filter fun n => !n.isDetail) ∧
    ((∀ m, Machine.load fs o.input = .ok m → m.violations = []) →
      { o with unchecked := true }.generate fs = { o with unchecked := false }.generate fs) := by
  have hquiet := GenerateOptions.generate_quiet { o with verbose := true } fs
  have hoption : { { o with verbose := true } with verbose := false }
    = { o with verbose := false } := rfl
  rw [hoption] at hquiet
  refine ⟨⟨?_, ?_, ?_⟩, GenerateOptions.generate_unchecked⟩
  · rw [hquiet]
    rfl
  · rw [hquiet]
    rfl
  · rw [hquiet]
    rfl

/-- Files of which one describes a machine and another one is an older header. -/
def staleFiles : FileSystem :=
  blinkerFiles.set [Text.ofString "StateMachine.h"] (.file "old\n")

/-- A verbose generation tells two details here, the machine and the changes of the header, and all
four generations end alike. -/
theorem staleFiles_outcomes :
    (∀ m, Machine.load staleFiles blinkerOptions.input = .ok m → m.violations = []) ∧
    ({ blinkerOptions with verbose := true }.generate staleFiles).notices.map Notice.isDetail
      = [false, true, true, false, false] ∧
    ({ blinkerOptions with verbose := false }.generate staleFiles).fileSystem
      = ({ blinkerOptions with verbose := true }.generate staleFiles).fileSystem ∧
    ({ blinkerOptions with verbose := false }.generate staleFiles).result
      = ({ blinkerOptions with verbose := true }.generate staleFiles).result ∧
    { blinkerOptions with unchecked := true }.generate staleFiles
      = { blinkerOptions with unchecked := false }.generate staleFiles := by
  have hload : Machine.load staleFiles blinkerOptions.input = .ok blinker :=
    eq_ok_of_toOption_eq_some (by decide +kernel)
  have hvalid : ∀ m, Machine.load staleFiles blinkerOptions.input = .ok m → m.violations = [] := by
    intro m hm
    cases hload.symm.trans hm
    decide
  obtain ⟨⟨hfiles, hresult, -⟩, hunchecked⟩ := options_without_influence blinkerOptions staleFiles
  exact ⟨hvalid, by decide +kernel, hfiles, hresult, hunchecked hvalid⟩

end StateForge
