import StateForge.Proofs.Generation.Outcome

/-!
# Generating twice

A file that has the lines of its artifact already is left alone, so a second generation should find
nothing to do. For that it has to read the same machine again, and each of the two sources has to
come back from its file as the lines that were generated, whether the first generation wrote the
file or found an older one, with other line ends, and kept it.

* `GenerateOptions.resolve_input_of_generate`: a generation leaves the document alone, whether it
  succeeds or not.
* `GenerateOptions.upToDate_of_generate`: a generation that succeeds leaves the files up to date.
* `GenerateOptions.generate_of_readLines`: a generation that finds both sources does nothing.

The three files that a generation deals with have to be different ones. `FilesApart` is asked of the
file system after the generation only. Paths that lead to one file go on doing so, so they never did
before.
-/

set_option autoImplicit false

namespace StateForge

open FileSystem

/-! ## Reading the machine again -/

namespace Machine

/-- A machine is read from the file that the path leads to. -/
theorem resolve_of_load {fs : FileSystem} {path : Text} {m : Machine} (h : load fs path = .ok m) :
    ∃ l c, fs.resolve true path = .ok (.found l (.file c)) := by
  rw [load] at h
  obtain ⟨opened, hopen, h⟩ := exists_of_bind_eq_ok h
  obtain ⟨content, hcontent, -⟩ := exists_of_bind_eq_ok h
  replace hopen := eq_ok_of_mapError_eq_ok hopen
  replace hcontent := eq_ok_of_mapError_eq_ok hcontent
  rw [openFile] at hopen
  split at hopen
  · exact absurd hopen (by simp)
  · exact ⟨_, _, ‹_›⟩
  · cases hopen
    exact absurd hcontent (by simp [Opened.read])
  · exact absurd hopen (by simp)
  · exact absurd hopen (by simp)

/-- Nothing but the content of that file decides what is read. -/
theorem load_eq_of_resolve_eq {fs fs' : FileSystem} {path : Text}
    (h : fs'.resolve true path = fs.resolve true path) : load fs' path = load fs path := by
  have hopen : fs'.openFile path = fs.openFile path := by rw [openFile, openFile, h]
  rw [load, load, hopen]

end Machine

/-! ## Finding everything in place -/

theorem Writer.write_of_readLines {w : Writer} {fs : FileSystem} {a : Artifact}
    (h : fs.readLines (w.path a) = .ok a.lines) : w.write fs a = ⟨fs, [], .ok .unchanged⟩ := by
  simp only [Writer.write, h, beq_self_eq_true, if_true]

/-- Writing counts the files and not the states. -/
theorem Writer.states_of_emit {w : Writer} {fs : FileSystem} {stats stats' : GenerateStats}
    {artifacts : List Artifact} (h : (w.emit fs stats artifacts).result = .ok stats') :
    stats'.states = stats.states := by
  induction artifacts generalizing fs stats with
  | nil =>
    cases h
    rfl
  | cons a rest ih =>
    rw [Writer.emit] at h
    split at h
    · exact absurd h (by simp)
    · rename_i status _
      have hcount : (stats.count status).states = stats.states := by
        rw [GenerateStats.count]
        split <;> rfl
      exact (ih h).trans hcount

namespace GenerateOptions

theorem passes_of_generate {o : GenerateOptions} {fs : FileSystem} {m : Machine}
    {stats : GenerateStats} (hload : Machine.load fs o.input = .ok m)
    (hok : (o.generate fs).result = .ok stats) : o.Passes m := by
  obtain ⟨m', _, _, _, hload', hpass, -⟩ := does_of_generate hok
  cases hload.symm.trans hload'
  exact hpass

theorem states_of_generate {o : GenerateOptions} {fs : FileSystem} {m : Machine}
    {stats : GenerateStats} (hload : Machine.load fs o.input = .ok m)
    (hok : (o.generate fs).result = .ok stats) : stats.states = m.states.length := by
  rw [generate, hload] at hok
  simp only [generateFrom] at hok
  split at hok
  · exact absurd hok (by simp)
  · exact Writer.states_of_emit hok

/-- **A generation that finds both sources in place does nothing.** -/
theorem generate_of_readLines {o : GenerateOptions} {fs : FileSystem} {m : Machine}
    (hload : Machine.load fs o.input = .ok m) (hpass : o.Passes m)
    (hheader : fs.readLines (o.headerPath m) = .ok (o.layout.header m))
    (hsource : fs.readLines (o.sourcePath m) = .ok (o.layout.implementation m)) :
    (o.generate fs).result = .ok ⟨m.states.length, 0, 2⟩ ∧ (o.generate fs).fileSystem = fs := by
  have hfirst : o.writer.write fs (o.headerArtifact m) = ⟨fs, [], .ok .unchanged⟩ :=
    Writer.write_of_readLines hheader
  have hsecond : o.writer.write fs (o.sourceArtifact m) = ⟨fs, [], .ok .unchanged⟩ :=
    Writer.write_of_readLines hsource
  have hpass' : ¬ (!o.unchecked && m.violations != []) = true :=
    fun h => not_passes_iff.mp h hpass
  have hartifacts : o.artifacts m = [o.headerArtifact m, o.sourceArtifact m] := rfl
  rw [generate, hload]
  simp only [generateFrom, if_neg hpass', hartifacts, Writer.emit, hfirst, hsecond]
  exact ⟨rfl, rfl⟩

end GenerateOptions

/-! ## Files that are up to date -/

namespace GenerateOptions

/-- The input, the header and the implementation are three different files. -/
structure FilesApart (o : GenerateOptions) (m : Machine) (fs : FileSystem) : Prop where
  outputs : ¬ fs.SameFile (o.headerPath m) (o.sourcePath m)
  header : ¬ fs.SameFile o.input (o.headerPath m)
  source : ¬ fs.SameFile o.input (o.sourcePath m)

instance (o : GenerateOptions) (m : Machine) (fs : FileSystem) : Decidable (o.FilesApart m fs) :=
  decidable_of_iff (¬ fs.SameFile (o.headerPath m) (o.sourcePath m) ∧
      ¬ fs.SameFile o.input (o.headerPath m) ∧ ¬ fs.SameFile o.input (o.sourcePath m))
    ⟨fun h => ⟨h.1, h.2.1, h.2.2⟩, fun h => ⟨h.outputs, h.header, h.source⟩⟩

/-- The document is what it was, after two writes to other files of which the first succeeded. -/
theorem resolve_input_of_does {o : GenerateOptions} {m : Machine} {fs between after : FileSystem}
    {status : WriteStatus} {result : Except WriteError WriteStatus}
    (hfirst : o.writer.Does fs (o.headerArtifact m) between (.ok status))
    (hsecond : o.writer.Does between (o.sourceArtifact m) after result)
    (h : o.FilesApart m after) {l : Location} {c : Text}
    (hr : fs.resolve true o.input = .ok (.found l (.file c))) :
    after.resolve true o.input = .ok (.found l (.file c)) :=
  hsecond.resolve_kept
    (hfirst.resolve_kept hr fun hsame => h.header (hsecond.extend.sameFile hsame)) h.source

/-- **A generation leaves the document alone**, whether it succeeds or not. -/
theorem resolve_input_of_generate {o : GenerateOptions} {fs : FileSystem}
    (h : ∀ m, Machine.load fs o.input = .ok m → o.FilesApart m (o.generate fs).fileSystem) :
    (o.generate fs).fileSystem.resolve true o.input = fs.resolve true o.input := by
  have hcourse := o.generate_course fs
  generalize (o.generate fs).fileSystem = after, (o.generate fs).result = result at hcourse h ⊢
  cases hcourse with
  | unread => rfl
  | invalid => rfl
  | @stoppedFirst m _ hload _ hfirst =>
    obtain ⟨l, c, hr⟩ := Machine.resolve_of_load hload
    exact ((first_does hfirst).resolve_kept hr (h m hload).header).trans hr.symm
  | @stoppedSecond m _ _ hload _ hfirst hsecond =>
    obtain ⟨l, c, hr⟩ := Machine.resolve_of_load hload
    exact (resolve_input_of_does (first_does hfirst) (second_does hsecond) (h m hload) hr).trans
      hr.symm
  | @finished m _ _ _ hload _ hfirst hsecond =>
    obtain ⟨l, c, hr⟩ := Machine.resolve_of_load hload
    exact (resolve_input_of_does (first_does hfirst) (second_does hsecond) (h m hload) hr).trans
      hr.symm

/-- The document describes a machine, and the files are read as the sources of that machine, if no
line of them is too long to be read. -/
def UpToDate (o : GenerateOptions) (fs : FileSystem) : Prop :=
  ∃ m, Machine.load fs o.input = .ok m ∧
    ((∀ line ∈ o.layout.header m ++ o.layout.implementation m, line.length ≤ Lines.maxLength) →
      fs.readLines (o.headerPath m) = .ok (o.layout.header m) ∧
      fs.readLines (o.sourcePath m) = .ok (o.layout.implementation m))

/-- **A generation that succeeds leaves the files up to date.** -/
theorem upToDate_of_generate {o : GenerateOptions} {fs : FileSystem} {stats : GenerateStats}
    (hchecked : o.unchecked = false) (hbase : Text.newline ∉ o.baseName)
    (hplatform : Text.newline ∉ o.platform)
    (h : ∀ m, Machine.load fs o.input = .ok m → o.FilesApart m (o.generate fs).fileSystem)
    (hok : (o.generate fs).result = .ok stats) : o.UpToDate (o.generate fs).fileSystem := by
  obtain ⟨m, between, status, status', hload, hpass, hfirst, hsecond⟩ := does_of_generate hok
  have hinput := Machine.load_eq_of_resolve_eq (resolve_input_of_generate h)
  refine ⟨m, hinput.trans hload, fun hshort => ?_⟩
  obtain ⟨hsource, hheader⟩ := readBack_of_does (wellFormed_of_passes hchecked hpass) hbase
    hplatform hshort hfirst hsecond
  exact ⟨hheader.mpr (h m hload).outputs, hsource⟩

end GenerateOptions

/-! ## Generating again -/

/-- **A second generation changes nothing.** It reports the same number of states and two files that
are unchanged, and the file system is the one that the first generation left, whatever was in the
two files before that. -/
theorem generate_again_unchanged {o : GenerateOptions} {fs : FileSystem} {m : Machine}
    {stats : GenerateStats} (hchecked : o.unchecked = false) (hbase : Text.newline ∉ o.baseName)
    (hplatform : Text.newline ∉ o.platform) (hload : Machine.load fs o.input = .ok m)
    (hshort : ∀ line ∈ o.layout.header m ++ o.layout.implementation m,
      line.length ≤ Lines.maxLength)
    (hapart : o.FilesApart m (o.generate fs).fileSystem)
    (hok : (o.generate fs).result = .ok stats) :
    (o.generate (o.generate fs).fileSystem).result = .ok ⟨stats.states, 0, 2⟩ ∧
    (o.generate (o.generate fs).fileSystem).fileSystem = (o.generate fs).fileSystem := by
  have hapart' : ∀ m', Machine.load fs o.input = .ok m' →
      o.FilesApart m' (o.generate fs).fileSystem := by
    intro m' hload'
    cases hload.symm.trans hload'
    exact hapart
  have hload' : Machine.load (o.generate fs).fileSystem o.input = .ok m :=
    (Machine.load_eq_of_resolve_eq (GenerateOptions.resolve_input_of_generate hapart')).trans hload
  obtain ⟨m', hload'', hread⟩ :=
    GenerateOptions.upToDate_of_generate hchecked hbase hplatform hapart' hok
  cases hload'.symm.trans hload''
  obtain ⟨hheader, hsource⟩ := hread hshort
  rw [GenerateOptions.states_of_generate hload hok]
  exact GenerateOptions.generate_of_readLines hload' (GenerateOptions.passes_of_generate hload hok)
    hheader hsource

/-- Files with a header from before, whose lines end with carriage returns and whose last line has
no end. -/
def carriedOverFiles : FileSystem :=
  blinkerFiles.set [Text.ofString "StateMachine.h"]
    (.file ((Text.ofString "\r\n").intercalate (blinkerOptions.layout.header blinker)))

/-- The first generation keeps the old header and writes the implementation, the second one does
nothing. -/
theorem blinker_again_unchanged :
    (blinkerOptions.generate carriedOverFiles).result = .ok ⟨1, 1, 1⟩ ∧
    (blinkerOptions.generate (blinkerOptions.generate carriedOverFiles).fileSystem).result
      = .ok ⟨1, 0, 2⟩ ∧
    (blinkerOptions.generate (blinkerOptions.generate carriedOverFiles).fileSystem).fileSystem
      = (blinkerOptions.generate carriedOverFiles).fileSystem := by
  have hload : Machine.load carriedOverFiles blinkerOptions.input = .ok blinker :=
    eq_ok_of_toOption_eq_some (by decide +kernel)
  have hok : (blinkerOptions.generate carriedOverFiles).result = .ok ⟨1, 1, 1⟩ :=
    eq_ok_of_toOption_eq_some (by decide +kernel)
  have hapart : blinkerOptions.FilesApart blinker
      (blinkerOptions.generate carriedOverFiles).fileSystem := by
    decide +kernel
  exact ⟨hok, generate_again_unchanged rfl (by decide) (by decide) hload (by decide +kernel) hapart
    hok⟩

end StateForge
