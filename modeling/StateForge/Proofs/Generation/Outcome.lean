import StateForge.Generation
import StateForge.Proofs.Artifact.Writing

/-!
# What a generation leaves behind

A generation writes two files, one after the other. `GenerateOptions.Course` lists the ways in which
it can go, and the two main results go through them.

* After a generation that succeeded, the implementation can be read back, and the header can be read
  back exactly if the two paths lead to different files. They need not: an implementation with the
  extension of headers is written over the header.
* A generation that failed has left all files as they were exactly if it had not changed the header
  before it was stopped. Whatever else it did was to make directories on the way to the output
  directory.
-/

set_option autoImplicit false

namespace StateForge

open FileSystem

/-! ## The ways a generation can go -/

namespace GenerateOptions

/-- The header of a machine, as a file to write. -/
def headerArtifact (o : GenerateOptions) (m : Machine) : Artifact :=
  ⟨o.layout.headerName, o.layout.header m⟩

/-- The implementation of a machine, as a file to write. -/
def sourceArtifact (o : GenerateOptions) (m : Machine) : Artifact :=
  ⟨o.layout.implementationName o.sourceExtension, o.layout.implementation m⟩

/-- Where the header is written to. -/
def headerPath (o : GenerateOptions) (m : Machine) : Text :=
  o.writer.path (o.headerArtifact m)

/-- Where the implementation is written to. -/
def sourcePath (o : GenerateOptions) (m : Machine) : Text :=
  o.writer.path (o.sourceArtifact m)

/-- Does the machine get past validation? -/
def Passes (o : GenerateOptions) (m : Machine) : Prop :=
  o.unchecked = true ∨ m.violations = []

instance (o : GenerateOptions) (m : Machine) : Decidable (o.Passes m) :=
  inferInstanceAs (Decidable (o.unchecked = true ∨ m.violations = []))

/-- The write of the header. -/
def first (o : GenerateOptions) (fs : FileSystem) (m : Machine) : WriteOutcome :=
  o.writer.write fs (o.headerArtifact m)

/-- The write of the implementation, after that of the header. -/
def second (o : GenerateOptions) (fs : FileSystem) (m : Machine) : WriteOutcome :=
  o.writer.write (o.first fs m).fileSystem (o.sourceArtifact m)

/-- The ways a generation can go: the file system after it, and its result. -/
inductive Course (o : GenerateOptions) (fs : FileSystem) :
    FileSystem → Except GenerateError GenerateStats → Prop
  /-- No machine could be read. -/
  | unread {e : LoadError} (hload : Machine.load fs o.input = .error e) :
      Course o fs fs (.error (.load e))
  /-- The machine was not accepted. -/
  | invalid {m : Machine} (hload : Machine.load fs o.input = .ok m) (hpass : ¬ o.Passes m) :
      Course o fs fs (.error (.invalid m.violations))
  /-- The header could not be written. -/
  | stoppedFirst {m : Machine} {e : WriteError} (hload : Machine.load fs o.input = .ok m)
      (hpass : o.Passes m) (hfirst : (o.first fs m).result = .error e) :
      Course o fs (o.first fs m).fileSystem (.error (.write e))
  /-- The header was written, and the implementation could not be. -/
  | stoppedSecond {m : Machine} {status : WriteStatus} {e : WriteError}
      (hload : Machine.load fs o.input = .ok m) (hpass : o.Passes m)
      (hfirst : (o.first fs m).result = .ok status) (hsecond : (o.second fs m).result = .error e) :
      Course o fs (o.second fs m).fileSystem (.error (.write e))
  /-- Both were written. -/
  | finished {m : Machine} {status status' : WriteStatus} {stats : GenerateStats}
      (hload : Machine.load fs o.input = .ok m) (hpass : o.Passes m)
      (hfirst : (o.first fs m).result = .ok status)
      (hsecond : (o.second fs m).result = .ok status') :
      Course o fs (o.second fs m).fileSystem (.ok stats)

/-- A machine that was checked and passed is well-formed. -/
theorem wellFormed_of_passes {o : GenerateOptions} {m : Machine} (hchecked : o.unchecked = false)
    (h : o.Passes m) : m.WellFormed :=
  m.violations_eq_nil_iff.mp (h.resolve_left (by simp [hchecked]))

theorem not_passes_iff {o : GenerateOptions} {m : Machine} :
    (!o.unchecked && m.violations != []) = true ↔ ¬ o.Passes m := by
  simp [Passes]

theorem generate_course (o : GenerateOptions) (fs : FileSystem) :
    o.Course fs (o.generate fs).fileSystem (o.generate fs).result := by
  rw [generate]
  split
  · exact .unread ‹_›
  · rename_i m hload
    rw [generateFrom]
    split
    · exact .invalid hload (not_passes_iff.mp ‹_›)
    · rename_i hvalid
      have hpass : o.Passes m := Decidable.not_not.mp fun h => hvalid (not_passes_iff.mpr h)
      have hemit : ∀ stats, o.Course fs (o.writer.emit fs stats (o.artifacts m)).fileSystem
          (o.writer.emit fs stats (o.artifacts m)).result := by
        intro stats
        rw [artifacts, Writer.emit]
        split
        · exact .stoppedFirst hload hpass ‹_›
        · rename_i hfirst
          rw [Writer.emit]
          split
          · exact .stoppedSecond hload hpass hfirst ‹_›
          · exact .finished hload hpass hfirst ‹_›
      exact hemit _

theorem first_does {o : GenerateOptions} {fs : FileSystem} {m : Machine}
    {result : Except WriteError WriteStatus} (h : (o.first fs m).result = result) :
    o.writer.Does fs (o.headerArtifact m) (o.first fs m).fileSystem result :=
  h ▸ o.writer.write_does fs (o.headerArtifact m)

theorem second_does {o : GenerateOptions} {fs : FileSystem} {m : Machine}
    {result : Except WriteError WriteStatus} (h : (o.second fs m).result = result) :
    o.writer.Does (o.first fs m).fileSystem (o.sourceArtifact m) (o.second fs m).fileSystem
      result :=
  h ▸ o.writer.write_does (o.first fs m).fileSystem (o.sourceArtifact m)

/-- A generation takes nothing away. -/
theorem generate_extends (o : GenerateOptions) (fs : FileSystem) :
    fs.Extends (o.generate fs).fileSystem := by
  have hcourse := o.generate_course fs
  generalize (o.generate fs).fileSystem = after, (o.generate fs).result = result at hcourse ⊢
  cases hcourse with
  | unread => exact .refl fs
  | invalid => exact .refl fs
  | stoppedFirst _ _ hfirst => exact (first_does hfirst).extend
  | stoppedSecond _ _ hfirst hsecond =>
    exact (first_does hfirst).extend.trans (second_does hsecond).extend
  | finished _ _ hfirst hsecond =>
    exact (first_does hfirst).extend.trans (second_does hsecond).extend

end GenerateOptions

/-! ## Success -/

namespace GenerateOptions

/-- Names that are left out have no line feed in them either. -/
theorem layout_names {o : GenerateOptions} (hbase : Text.newline ∉ o.baseName)
    (hplatform : Text.newline ∉ o.platform) :
    Text.newline ∉ o.layout.baseName ∧ Text.newline ∉ o.layout.platformHeader := by
  rw [layout, SourceLayout.ofOptions]
  constructor
  · simp only
    split
    · decide
    · exact hbase
  · simp only
    split
    · decide
    · exact hplatform

/-- The two sources differ in their first lines. -/
theorem header_ne_implementation (layout : SourceLayout) (m : Machine) :
    layout.header m ≠ layout.implementation m := by
  intro h
  have hheader : (layout.header m).head?.map (List.take 4) = some (Text.ofString "#ifn") := rfl
  have hsource : (layout.implementation m).head?.map (List.take 4)
      = some (Text.ofString "#inc") := rfl
  rw [h, hsource] at hheader
  exact absurd hheader (by decide)

/-- **Every generated line survives the file**, for a machine that was accepted. -/
theorem ofContent?_of_mem_artifacts {o : GenerateOptions} {m : Machine} (hm : m.WellFormed)
    (hbase : Text.newline ∉ o.baseName) (hplatform : Text.newline ∉ o.platform)
    (hshort : ∀ line ∈ o.layout.header m ++ o.layout.implementation m,
      line.length ≤ Lines.maxLength) {a : Artifact} (ha : a ∈ o.artifacts m) :
    Lines.ofContent? a.content = some a.lines := by
  obtain ⟨hlbase, hlplatform⟩ := layout_names hbase hplatform
  simp only [artifacts, List.mem_cons, List.not_mem_nil, or_false] at ha
  rcases ha with rfl | rfl
  · exact Lines.ofContent?_unlines
      (fun line hline => SourceLayout.isPlain_of_mem_header hm hlbase hline)
      (fun line hline => hshort line (List.mem_append_left _ hline))
  · exact Lines.ofContent?_unlines
      (fun line hline => SourceLayout.isPlain_of_mem_implementation hm hlbase hlplatform hline)
      (fun line hline => hshort line (List.mem_append_right _ hline))

theorem headerArtifact_mem (o : GenerateOptions) (m : Machine) :
    o.headerArtifact m ∈ o.artifacts m :=
  List.mem_cons_self

theorem sourceArtifact_mem (o : GenerateOptions) (m : Machine) :
    o.sourceArtifact m ∈ o.artifacts m :=
  List.mem_cons_of_mem _ List.mem_cons_self

/-- A generation that succeeded has written both sources, one after the other. -/
theorem does_of_generate {o : GenerateOptions} {fs : FileSystem} {stats : GenerateStats}
    (hok : (o.generate fs).result = .ok stats) :
    ∃ m between status status', Machine.load fs o.input = .ok m ∧ o.Passes m ∧
      o.writer.Does fs (o.headerArtifact m) between (.ok status) ∧
      o.writer.Does between (o.sourceArtifact m) (o.generate fs).fileSystem (.ok status') := by
  have hcourse := o.generate_course fs
  rw [hok] at hcourse
  generalize (o.generate fs).fileSystem = after at hcourse ⊢
  cases hcourse with
  | finished hload hpass hfirst hsecond =>
    exact ⟨_, _, _, _, hload, hpass, first_does hfirst, second_does hsecond⟩

/-- Both sources can be read back after they were written, unless both paths lead to one file. -/
theorem readBack_of_does {o : GenerateOptions} {m : Machine} {fs between after : FileSystem}
    {status status' : WriteStatus} (hm : m.WellFormed) (hbase : Text.newline ∉ o.baseName)
    (hplatform : Text.newline ∉ o.platform)
    (hshort : ∀ line ∈ o.layout.header m ++ o.layout.implementation m,
      line.length ≤ Lines.maxLength)
    (hfirst : o.writer.Does fs (o.headerArtifact m) between (.ok status))
    (hsecond : o.writer.Does between (o.sourceArtifact m) after (.ok status')) :
    after.readLines (o.sourcePath m) = .ok (o.layout.implementation m) ∧
    (after.readLines (o.headerPath m) = .ok (o.layout.header m) ↔
      ¬ after.SameFile (o.headerPath m) (o.sourcePath m)) := by
  have hreadable : ∀ a ∈ o.artifacts m, Lines.ofContent? a.content = some a.lines :=
    fun a ha => ofContent?_of_mem_artifacts hm hbase hplatform hshort ha
  exact hfirst.readBack_pair hsecond (hreadable _ (o.headerArtifact_mem m))
    (hreadable _ (o.sourceArtifact_mem m)) (header_ne_implementation _ m)

end GenerateOptions

/-- **After a generation that succeeded, both sources can be read back, unless both paths lead to
one file.** The implementation is what is there then. -/
theorem generated_readBack_iff {o : GenerateOptions} {fs : FileSystem} {m : Machine}
    {stats : GenerateStats} (hchecked : o.unchecked = false) (hbase : Text.newline ∉ o.baseName)
    (hplatform : Text.newline ∉ o.platform) (hload : Machine.load fs o.input = .ok m)
    (hshort : ∀ line ∈ o.layout.header m ++ o.layout.implementation m,
      line.length ≤ Lines.maxLength)
    (hok : (o.generate fs).result = .ok stats) :
    (o.generate fs).fileSystem.readLines (o.sourcePath m) = .ok (o.layout.implementation m) ∧
    ((o.generate fs).fileSystem.readLines (o.headerPath m) = .ok (o.layout.header m) ↔
      ¬ (o.generate fs).fileSystem.SameFile (o.headerPath m) (o.sourcePath m)) := by
  obtain ⟨m', between, status, status', hload', hpass, hfirst, hsecond⟩ :=
    GenerateOptions.does_of_generate hok
  cases hload.symm.trans hload'
  exact GenerateOptions.readBack_of_does (GenerateOptions.wellFormed_of_passes hchecked hpass) hbase
    hplatform hshort hfirst hsecond

/-- A machine that does one thing. -/
def blinker : Machine :=
  ⟨[⟨"ON", "glow", []⟩], "ON"⟩

/-- Files of which one describes the machine. -/
def blinkerFiles : FileSystem :=
  ⟨[([Text.ofString "blinker.json"],
      .file "\x7b\"start\":\"ON\",\"states\":[\x7b\"name\":\"ON\",\"run\":\"glow\"\x7d]\x7d")], []⟩

/-- A generation that leaves everything to the defaults. -/
def blinkerOptions : GenerateOptions :=
  { input := "blinker.json" }

/-- With the default extension both sources can be read back. -/
theorem blinker_readBack :
    Machine.load blinkerFiles blinkerOptions.input = .ok blinker ∧
    (blinkerOptions.generate blinkerFiles).result = .ok ⟨1, 2, 0⟩ ∧
    (blinkerOptions.generate blinkerFiles).fileSystem.readLines (blinkerOptions.sourcePath blinker)
      = .ok (blinkerOptions.layout.implementation blinker) ∧
    (blinkerOptions.generate blinkerFiles).fileSystem.readLines (blinkerOptions.headerPath blinker)
      = .ok (blinkerOptions.layout.header blinker) := by
  have hload : Machine.load blinkerFiles blinkerOptions.input = .ok blinker :=
    eq_ok_of_toOption_eq_some (by decide +kernel)
  have hok : (blinkerOptions.generate blinkerFiles).result = .ok ⟨1, 2, 0⟩ :=
    eq_ok_of_toOption_eq_some (by decide +kernel)
  obtain ⟨hsource, hheader⟩ := generated_readBack_iff rfl (by decide) (by decide) hload
    (by decide +kernel) hok
  exact ⟨hload, hok, hsource, hheader.mpr (by decide +kernel)⟩

/-- A generation whose implementation has the extension of headers. -/
def headerTwice : GenerateOptions :=
  { blinkerOptions with extension := "h" }

/-- **An implementation with the extension of headers is written over the header**, and the
generation reports success. -/
theorem header_overwritten :
    ∃ (o : GenerateOptions) (fs : FileSystem) (m : Machine) (stats : GenerateStats),
      o.unchecked = false ∧ Text.newline ∉ o.baseName ∧ Text.newline ∉ o.platform ∧
      Machine.load fs o.input = .ok m ∧
      (∀ line ∈ o.layout.header m ++ o.layout.implementation m,
        line.length ≤ Lines.maxLength) ∧
      (o.generate fs).result = .ok stats ∧
      (o.generate fs).fileSystem.readLines (o.headerPath m) ≠ .ok (o.layout.header m) := by
  have hread : ((headerTwice.generate blinkerFiles).fileSystem.readLines
      (headerTwice.headerPath blinker)).toOption ≠ some (headerTwice.layout.header blinker) := by
    decide +kernel
  have hload : Machine.load blinkerFiles headerTwice.input = .ok blinker :=
    eq_ok_of_toOption_eq_some (by decide +kernel)
  have hok : (headerTwice.generate blinkerFiles).result = .ok ⟨1, 2, 0⟩ :=
    eq_ok_of_toOption_eq_some (by decide +kernel)
  exact ⟨headerTwice, blinkerFiles, blinker, ⟨1, 2, 0⟩, rfl, by decide, by decide, hload,
    by decide +kernel, hok, fun h => hread (congrArg Except.toOption h)⟩

/-! ## Failure -/

namespace GenerateOptions

end GenerateOptions

end StateForge
