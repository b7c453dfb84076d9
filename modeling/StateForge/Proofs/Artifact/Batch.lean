import StateForge.Proofs.Artifact.Status
import StateForge.Proofs.Generation.Rerun

/-!
# Writing several artifacts

Artifacts are written one after the other, up to the first that fails. What each write does is known
from `Writer.Runs`; this file follows a whole list of them.

* `Writer.WritesAll`: the artifacts of a list are written in turn. `writeAll_cases` says that all
  are written so, or those before one that fails.
* `WritesAll.files_or`: a file that none of the paths leads to is not touched.

The paths have to lead to different files. As for a generation, this is asked of the file system at
the end, since before a file is written its path may lead nowhere.
-/

set_option autoImplicit false

namespace StateForge

open FileSystem

/-- The file at a path, if there is one, is what it was, and if there was none, there is still none
but one that was there by another path. -/
structure FileSystem.Untouched (fs fs' : FileSystem) (path : Text) : Prop where
  kept : ∀ l c, fs.resolve true path = .ok (.found l (.file c)) →
    fs'.resolve true path = .ok (.found l (.file c))
  old : ∀ l c, fs'.resolve true path = .ok (.found l (.file c)) → fs.get? l = some (.file c)

/-! ## Runs -/

namespace Writer

/-- Artifacts are written in turn, each with its status. -/
inductive WritesAll (w : Writer) :
    FileSystem → List Artifact → List WriteStatus → FileSystem → Prop
  | nil (fs : FileSystem) : WritesAll w fs [] [] fs
  | cons {fs fs' : FileSystem} {a : Artifact} {rest : List Artifact} {status : WriteStatus}
      {statuses : List WriteStatus} (hstatus : (w.write fs a).result = .ok status)
      (hrest : WritesAll w (w.write fs a).fileSystem rest statuses fs') :
      WritesAll w fs (a :: rest) (status :: statuses) fs'

/-- What happened when writing stopped at an artifact, after those before it were written. -/
structure StopsAt (w : Writer) (fs : FileSystem) (done : List Artifact) (a : Artifact)
    (e : WriteError) (o : AllOutcome) (between : FileSystem) : Prop where
  before : w.WritesAll fs done o.statuses between
  failure : (w.write between a).result = .error e
  fileSystem : o.fileSystem = (w.write between a).fileSystem

/-- **All artifacts are written, or those before one that fails.** -/
theorem writeAll_cases (w : Writer) (fs : FileSystem) (artifacts : List Artifact) :
    match (w.writeAll fs artifacts).error? with
    | none => w.WritesAll fs artifacts (w.writeAll fs artifacts).statuses
        (w.writeAll fs artifacts).fileSystem
    | some e => ∃ done a rest between, artifacts = done ++ a :: rest ∧
        w.StopsAt fs done a e (w.writeAll fs artifacts) between := by
  induction artifacts generalizing fs with
  | nil => exact .nil fs
  | cons a rest ih =>
    rw [writeAll]
    simp only
    cases hresult : (w.write fs a).result with
    | error e => exact ⟨[], a, rest, fs, rfl, .nil fs, hresult, rfl⟩
    | ok status =>
      simp only
      replace ih := ih (w.write fs a).fileSystem
      cases herror : (w.writeAll (w.write fs a).fileSystem rest).error? with
      | none =>
        rw [herror] at ih
        exact .cons hresult ih
      | some e =>
        rw [herror] at ih
        obtain ⟨done, b, rest', between, hsplit, hstops⟩ := ih
        exact ⟨a :: done, b, rest', between, by rw [hsplit, List.cons_append],
          .cons hresult hstops.before, hstops.failure, hstops.fileSystem⟩

namespace WritesAll

variable {w : Writer} {fs fs' : FileSystem} {artifacts : List Artifact}
  {statuses : List WriteStatus}

theorem length_eq (h : w.WritesAll fs artifacts statuses fs') :
    statuses.length = artifacts.length := by
  induction h with
  | nil => rfl
  | cons _ _ ih => rw [List.length_cons, List.length_cons, ih]

theorem extend (h : w.WritesAll fs artifacts statuses fs') : fs.Extends fs' := by
  induction h with
  | nil fs => exact .refl fs
  | cons _ _ ih => exact (w.write_does _ _).extend.trans ih

/-- **The files at a place are kept, unless a path leads there in the end.** -/
theorem files_or (h : w.WritesAll fs artifacts statuses fs') (k : Location) :
    (∀ c, fs'.get? k = some (.file c) ↔ fs.get? k = some (.file c)) ∨
      ∃ a ∈ artifacts, ∃ c, fs'.resolve true (w.path a) = .ok (.found k (.file c)) := by
  induction h with
  | nil fs => exact .inl fun _ => Iff.rfl
  | @cons fs fs' a rest _ _ _ hrest ih =>
    rcases ih with hkept | ⟨b, hb, hlater⟩
    · cases (w.write_runs fs a).leavesAt k with
      | nothing h => exact .inl fun c => by rw [hkept c, h]
      | directory hnone hnew => exact .inl fun c => by rw [hkept c, hnone, hnew]; simp
      | file _ hr =>
        obtain ⟨c, hr', -⟩ := hrest.extend.resolve_file hr
        exact .inr ⟨a, List.mem_cons_self, c, hr'⟩
    · exact .inr ⟨b, List.mem_cons_of_mem _ hb, hlater⟩

/-- Artifacts in different files are all read back in the end. -/
theorem readLines_eq (h : w.WritesAll fs artifacts statuses fs')
    (hread : ∀ a ∈ artifacts, Lines.ofContent? a.content = some a.lines)
    (hapart : artifacts.Pairwise fun a b => ¬ fs'.SameFile (w.path a) (w.path b)) :
    ∀ a ∈ artifacts, fs'.readLines (w.path a) = .ok a.lines := by
  induction h with
  | nil => simp
  | @cons fs fs' a rest status _ hstatus hrest ih =>
    rw [List.pairwise_cons] at hapart
    rw [List.forall_mem_cons] at hread ⊢
    refine ⟨?_, ih hread.2 hapart.2⟩
    have hdoes := w.write_does fs a
    rw [hstatus] at hdoes
    obtain ⟨l, c, hr, hlines⟩ := hdoes.found hread.1
    obtain ⟨c', hr', -⟩ := hrest.extend.resolve_file hr
    -- no later path leads to the file, so it keeps its content
    rcases hrest.files_or l with hkept | ⟨b, hb, d, hrb⟩
    · have hafter := (hkept c).mpr (get?_of_resolve_file hr)
      exact readLines_eq_ok_iff.mpr
        ⟨l, c, hrest.extend.resolve_file_of_kept hr hafter, hlines⟩
    · exact absurd (sameFile_of_resolve hr' hrb) (hapart.1 b hb)

/-- A second run over files that are in place. -/
theorem writeAll_of_readLines (h : ∀ a ∈ artifacts, fs.readLines (w.path a) = .ok a.lines) :
    w.writeAll fs artifacts
      = ⟨fs, [], List.replicate artifacts.length .unchanged, none⟩ := by
  induction artifacts with
  | nil => rfl
  | cons a rest ih =>
    rw [List.forall_mem_cons] at h
    rw [writeAll, write_of_readLines h.1]
    simp only
    rw [ih h.2]
    rfl

end WritesAll

/-! ## Stopping -/

namespace StopsAt

variable {w : Writer} {fs between : FileSystem} {done : List Artifact} {a : Artifact}
  {e : WriteError} {o : AllOutcome}

theorem filesKept (h : w.StopsAt fs done a e o between) : FilesKept between o.fileSystem :=
  h.fileSystem ▸ (w.write_runs between a).filesKept h.failure

theorem extend (h : w.StopsAt fs done a e o between) : between.Extends o.fileSystem :=
  h.fileSystem ▸ (w.write_does between a).extend

/-- The artifacts that were written are read back. -/
theorem readLines_eq (h : w.StopsAt fs done a e o between)
    (hread : ∀ b ∈ done, Lines.ofContent? b.content = some b.lines)
    (hapart : done.Pairwise fun b d => ¬ o.fileSystem.SameFile (w.path b) (w.path d)) :
    ∀ b ∈ done, o.fileSystem.readLines (w.path b) = .ok b.lines := by
  intro b hb
  have hbetween := h.before.readLines_eq hread
    (hapart.imp fun hbd hsame => hbd (h.extend.sameFile hsame)) b hb
  obtain ⟨l, c, hr, hlines⟩ := readLines_eq_ok_iff.mp hbetween
  have hafter := (h.filesKept l c).mpr (get?_of_resolve_file hr)
  exact readLines_eq_ok_iff.mpr ⟨l, c, h.extend.resolve_file_of_kept hr hafter, hlines⟩

/-- A path that leads to none of the files that were written leads to what it led to. -/
theorem untouched (h : w.StopsAt fs done a e o between) {path : Text}
    (hapart : ∀ b ∈ done, ¬ o.fileSystem.SameFile (w.path b) path) :
    Untouched fs o.fileSystem path := by
  have hextends := h.before.extend.trans h.extend
  -- the file that the path leads to now is at no place that was written to
  have hkept : ∀ l c, o.fileSystem.resolve true path = .ok (.found l (.file c)) →
      ∀ c', o.fileSystem.get? l = some (.file c') ↔ fs.get? l = some (.file c') := by
    intro l c hr c'
    rcases h.before.files_or l with hfiles | ⟨b, hb, d, hrb⟩
    · rw [h.filesKept l c', hfiles c']
    · obtain ⟨d', hrb', -⟩ := h.extend.resolve_file hrb
      exact absurd (sameFile_of_resolve hrb' hr) (hapart b hb)
  refine ⟨fun l c hr => ?_, fun l c hr => (hkept l c hr c).mp (get?_of_resolve_file hr)⟩
  obtain ⟨c', hr', -⟩ := hextends.resolve_file hr
  exact hextends.resolve_file_of_kept hr ((hkept l c' hr' c).mpr (get?_of_resolve_file hr))

end StopsAt

/-! ## The outcome -/

/-- What can be relied on if all artifacts were written. -/
structure Finished (w : Writer) (fs : FileSystem) (artifacts : List Artifact) (o : AllOutcome) :
    Prop where
  /-- The statuses are those of the writes, in order. -/
  run : w.WritesAll fs artifacts o.statuses o.fileSystem
  one_each : o.statuses.length = artifacts.length
  readBack : ∀ a ∈ artifacts, o.fileSystem.readLines (w.path a) = .ok a.lines
  /-- Doing the same again does nothing. -/
  again : w.writeAll o.fileSystem artifacts
    = ⟨o.fileSystem, [], List.replicate artifacts.length .unchanged, none⟩

/-- What can be relied on if writing stopped at the first artifact after `done`. -/
structure Stopped (w : Writer) (fs : FileSystem) (done rest : List Artifact) (e : WriteError)
    (o : AllOutcome) : Prop where
  /-- The statuses are those of the writes before, in order, and the next one failed. -/
  run : ∃ a ∈ rest.head?, ∃ between, w.StopsAt fs done a e o between
  one_each : o.statuses.length = done.length
  readBack : ∀ a ∈ done, o.fileSystem.readLines (w.path a) = .ok a.lines
  untouched : ∀ a ∈ rest, Untouched fs o.fileSystem (w.path a)

end Writer

/-- **Writing a list of artifacts can be repeated, and stops cleanly.** For artifacts in different
files, with lines that survive a file: if all are written, each is read back, and writing them once
more changes nothing; if one fails, those before it are read back, and the files of those after it
are what they were. -/
theorem writeAll_repeatable (w : Writer) (fs : FileSystem) {artifacts : List Artifact}
    (hlines : ∀ a ∈ artifacts, ∀ line ∈ a.lines, line.IsPlain ∧ line.length ≤ Lines.maxLength)
    (hapart : artifacts.Pairwise fun a b =>
      ¬ (w.writeAll fs artifacts).fileSystem.SameFile (w.path a) (w.path b)) :
    match (w.writeAll fs artifacts).error? with
    | none => w.Finished fs artifacts (w.writeAll fs artifacts)
    | some e => ∃ done rest, artifacts = done ++ rest ∧
        w.Stopped fs done rest e (w.writeAll fs artifacts) := by
  have hread : ∀ a ∈ artifacts, Lines.ofContent? a.content = some a.lines :=
    fun a ha => Lines.ofContent?_unlines (fun line hline => (hlines a ha line hline).1)
      (fun line hline => (hlines a ha line hline).2)
  have hcases := w.writeAll_cases fs artifacts
  cases herror : (w.writeAll fs artifacts).error? with
  | none =>
    rw [herror] at hcases
    have hback := hcases.readLines_eq hread hapart
    exact ⟨hcases, hcases.length_eq, hback, Writer.WritesAll.writeAll_of_readLines hback⟩
  | some e =>
    rw [herror] at hcases
    obtain ⟨done, a, rest, between, rfl, hstops⟩ := hcases
    obtain ⟨hdone, -, hacross⟩ := List.pairwise_append.mp hapart
    refine ⟨done, a :: rest, rfl, ⟨a, rfl, between, hstops⟩, hstops.before.length_eq, ?_, ?_⟩
    · exact hstops.readLines_eq (fun b hb => hread b (List.mem_append_left _ hb)) hdone
    · exact fun b hb => hstops.untouched fun d hd => hacross d hd b hb

/-- A writer for a directory that is not there. -/
def sideWriter : Writer :=
  Writer.make "out/gen" true

/-- A file outside of the directory, a new one, and one that would be below the first. -/
def sideArtifacts : List Artifact :=
  [⟨"../../old.h", ["x"]⟩, ⟨"new.c", ["one", ""]⟩, ⟨"../../old.h/below.c", ["two"]⟩]

/-- The first file is there, with a carriage return in it. -/
def sideFiles : FileSystem :=
  ⟨[([Text.ofString "old.h"], .file "x\r\n")], []⟩

/-- The first two artifacts can be written, and all three cannot. -/
theorem sideArtifacts_written :
    sideWriter.Finished sideFiles (sideArtifacts.take 2)
      (sideWriter.writeAll sideFiles (sideArtifacts.take 2)) ∧
    (sideWriter.writeAll sideFiles (sideArtifacts.take 2)).statuses = [.unchanged, .created] ∧
    ∃ e done rest, sideArtifacts = done ++ rest ∧
      sideWriter.Stopped sideFiles done rest e (sideWriter.writeAll sideFiles sideArtifacts) := by
  have hlines : ∀ a ∈ sideArtifacts, ∀ line ∈ a.lines,
      line.IsPlain ∧ line.length ≤ Lines.maxLength := by
    simp only [sideArtifacts, List.forall_mem_cons, List.not_mem_nil, false_imp_iff, implies_true,
      and_true]
    refine ⟨⟨⟨?_, ?_⟩, ?_⟩, ⟨⟨⟨?_, ?_⟩, ?_⟩, ⟨⟨?_, ?_⟩, ?_⟩⟩, ⟨⟨?_, ?_⟩, ?_⟩⟩ <;> decide
  have hfinished := writeAll_repeatable sideWriter sideFiles
    (fun a ha => hlines a (List.mem_of_mem_take (i := 2) ha)) (by decide +kernel)
  have hnone : (sideWriter.writeAll sideFiles (sideArtifacts.take 2)).error? = none := by
    decide +kernel
  have hstopped := writeAll_repeatable sideWriter sideFiles hlines (by decide +kernel)
  have hsome : (sideWriter.writeAll sideFiles sideArtifacts).error?.isSome = true := by
    decide +kernel
  obtain ⟨e, he⟩ := Option.isSome_iff_exists.mp hsome
  rw [hnone] at hfinished
  rw [he] at hstopped
  have hstatuses : (sideWriter.writeAll sideFiles (sideArtifacts.take 2)).statuses
      = [.unchanged, .created] := by
    decide +kernel
  exact ⟨hfinished, hstatuses, e, hstopped⟩

end StateForge
