import StateForge.Proofs.Artifact.Writing
import StateForge.Proofs.FileSystem.Directories

/-!
# What the status of a write says

A write reports one of three statuses, or fails. `Writer.Accounted` lists what can be relied on in
each case, and what can have happened at any place of the file system; `write_accounted` says that
it holds of every write. It goes through the ways in which a write can go (`Writer.Runs`).
-/

set_option autoImplicit false

namespace StateForge

open FileSystem

/-! ## What keeps a write from succeeding -/

/-- Only a path that leads nowhere counts as missing. -/
theorem FileSystem.resolve_ne_found_of_isMissing {fs : FileSystem} {path : Text} {e : ReadError}
    (h : fs.readLines path = .error e) (hmissing : e.isMissing = true) (l : Location)
    (entry : Entry) : fs.resolve true path ≠ .ok (.found l entry) := by
  intro hr
  rw [readLines, openFile, hr] at h
  cases entry with
  | file c =>
    simp only [Opened.read] at h
    split at h
    · exact absurd h (by simp)
    · cases h
      exact absurd hmissing (by decide)
  | directory =>
    cases h
    exact absurd hmissing (by simp [ReadError.isMissing])
  | link target =>
    cases h
    exact absurd hmissing (by simp [ReadError.isMissing])

theorem FileSystem.isMissing_of_resolve {fs : FileSystem} {path name : Text} {parent : Location}
    (hr : fs.resolve true path = .ok (.missing parent name)) {e : ReadError}
    (h : fs.readLines path = .error e) : e.isMissing = true := by
  rw [readLines, openFile, hr] at h
  cases h
  rfl

namespace Writer

variable {w : Writer} {fs fs' : FileSystem} {a : Artifact}

/-- **Nothing keeps an artifact from being written** where the directory is there and the path leads
to a file or to a name that is free. -/
theorem overwrite_succeeds {d : Location}
    (hdir : fs.resolve true w.directory = .ok (.found d .directory))
    (hfree : (∃ l c, fs.resolve true (w.path a) = .ok (.found l (.file c))) ∨
      ∃ parent name, fs.resolve true (w.path a) = .ok (.missing parent name)) :
    ∃ fs', w.overwrite fs a = (fs', .ok ()) := by
  rw [overwrite, makePath_of_resolve hdir]
  rcases hfree with ⟨l, c, hr⟩ | ⟨parent, name, hr⟩
  · simp [writeFile, hr]
  · simp [writeFile, hr]

/-! ## Places -/

/-- What a write can have done at a place. -/
inductive LeavesAt (w : Writer) (a : Artifact) (fs fs' : FileSystem) (k : Location) : Prop
  | nothing (h : fs'.get? k = fs.get? k)
  /-- There is a new directory, at the end of a part of the output directory's path. -/
  | directory {part : Text} (hnone : fs.get? k = none) (hnew : fs'.get? k = some .directory)
      (hpart : Path.IsPart part w.directory)
      (hr : fs'.resolve true part = .ok (.found k .directory))
  /-- The path of the artifact leads here, to a file that is new or was a file before. -/
  | file (hbefore : fs.get? k = none ∨ ∃ c, fs.get? k = some (.file c))
      (hr : fs'.resolve true (w.path a) = .ok (.found k (.file a.content)))

theorem leavesAt_makePath (w : Writer) (a : Artifact) (fs : FileSystem) (k : Location) :
    w.LeavesAt a fs (fs.makePath w.directory).1 k := by
  rcases (makePath_grown fs w.directory).entry k with hsame | ⟨hnone, hnew, -⟩
  · exact .nothing hsame
  · obtain ⟨part, hpart, hr⟩ := exists_part_of_makePath fs w.directory k hnone hnew
    exact .directory hnone hnew hpart hr

theorem leavesAt_overwrite (h : w.overwrite fs a = (fs', .ok ())) (k : Location) :
    w.LeavesAt a fs fs' k := by
  obtain ⟨l, hne, rfl, hextends, hr⟩ := writeFile_spec (overwrite_eq_ok h)
  generalize hbetween : (fs.makePath w.directory).1 = between at hextends hr ⊢
  have hplace := w.leavesAt_makePath a fs k
  have hbefore := (makePath_grown fs w.directory).extend
  rw [hbetween] at hplace hbefore
  by_cases hk : k = l
  · subst hk
    exact .file ((hbefore.trans hextends).none_or_file (get?_of_resolve_file hr)) hr
  · have hsame : (between.set l (.file a.content)).get? k = between.get? k := by
      rw [get?_set hne, if_neg hk]
    cases hplace with
    | nothing hkept => exact .nothing (hsame.trans hkept)
    | directory hnone hnew hpart hrpart =>
      exact .directory hnone (hsame.trans hnew) hpart (hextends.resolve_directory hrpart)
    | file hfile hrk =>
      obtain ⟨e, hrk', -⟩ := hextends.resolve_found hrk
      cases hr.symm.trans hrk'
      exact absurd rfl hk

/-! ## The account -/

/-- What can be relied on after a write. -/
structure Accounted (w : Writer) (fs : FileSystem) (a : Artifact) (o : WriteOutcome) : Prop where
  /-- An artifact is unchanged exactly if its file was there with its lines. -/
  unchanged_iff : o.result = .ok .unchanged ↔
    ∃ l c, fs.resolve true (w.path a) = .ok (.found l (.file c)) ∧
      Lines.ofContent? c = some a.lines
  /-- Nothing at all has happened then. -/
  untouched : o.result = .ok .unchanged → o.fileSystem = fs
  /-- A file that was created was not there, and has the content of the artifact. -/
  created : o.result = .ok .created →
    (∀ l e, fs.resolve true (w.path a) ≠ .ok (.found l e)) ∧
    ∃ l, o.fileSystem.resolve true (w.path a) = .ok (.found l (.file a.content))
  /-- A file that was updated was there with other lines, and has the content of the artifact. -/
  updated : o.result = .ok .updated →
    ∃ l c old, fs.resolve true (w.path a) = .ok (.found l (.file c)) ∧
      Lines.ofContent? c = some old ∧ old ≠ a.lines ∧
      o.fileSystem.resolve true (w.path a) = .ok (.found l (.file a.content))
  /-- The output directory is there after either of the two. -/
  directory : o.result = .ok .created ∨ o.result = .ok .updated →
    ∃ d, o.fileSystem.resolve true w.directory = .ok (.found d .directory)
  /-- A failure counts as unchanged, and all files are what they were. -/
  failed : ∀ e, o.result = .error e → o.status = .unchanged ∧ FilesKept fs o.fileSystem
  /-- Nothing is touched but the file of the artifact, and nothing is new but that file and
  directories on the way to the output directory. -/
  places : ∀ k, w.LeavesAt a fs o.fileSystem k
  /-- Everything that was there is still there. -/
  kept : fs.Extends o.fileSystem
  /-- There is no failure where the directory is there, and the path leads to a file that can be
  read or to a name that is free. -/
  succeeds : (∃ d, fs.resolve true w.directory = .ok (.found d .directory)) →
    ((∃ lines, fs.readLines (w.path a) = .ok lines) ∨
      ∃ parent name, fs.resolve true (w.path a) = .ok (.missing parent name)) →
    ∃ status, o.result = .ok status

theorem resolve_of_overwrite (h : w.overwrite fs a = (fs', .ok ())) :
    ∃ l, fs'.resolve true (w.path a) = .ok (.found l (.file a.content)) := by
  obtain ⟨l, -, -, -, hr⟩ := writeFile_spec (overwrite_eq_ok h)
  exact ⟨l, hr⟩

/-- Writing over a file makes the output directory, if need be. -/
theorem resolve_directory_of_overwrite (h : w.overwrite fs a = (fs', .ok ())) :
    ∃ d, fs'.resolve true w.directory = .ok (.found d .directory) := by
  obtain ⟨-, -, -, hextends, -⟩ := writeFile_spec (overwrite_eq_ok h)
  have hmade : ∃ d, (fs.makePath w.directory).1.resolve true w.directory
      = .ok (.found d .directory) := by
    rw [overwrite] at h
    split at h
    · exact absurd h (by simp)
    · rename_i hpath
      rw [hpath]
      exact resolve_of_makeDirectories hpath
  obtain ⟨d, hd⟩ := hmade
  exact ⟨d, hextends.resolve_directory hd⟩

namespace Runs

variable {o : WriteOutcome}

/-- A status is reported only for what it stands for. -/
theorem finds (h : w.Runs fs a o) {status : WriteStatus} (hstatus : o.result = .ok status) :
    w.Finds fs a status := by
  cases h with
  | kept h =>
    cases hstatus
    exact h
  | unread => exact absurd hstatus (by simp)
  | refused => exact absurd hstatus (by simp)
  | written _ _ h =>
    cases hstatus
    exact h

theorem unchanged_iff (h : w.Runs fs a o) :
    o.result = .ok .unchanged ↔ w.Finds fs a .unchanged := by
  refine ⟨h.finds, fun hfinds => ?_⟩
  cases h with
  | kept => rfl
  | unread h => exact absurd (h.symm.trans hfinds) (by simp)
  | refused _ hother => exact absurd hfinds hother
  | @written _ _ status _ hnew h =>
    cases status with
    | unchanged => exact absurd rfl hnew
    | created =>
      obtain ⟨e, he, -⟩ := h
      exact absurd (he.symm.trans hfinds) (by simp)
    | updated =>
      obtain ⟨old, hold, hother⟩ := h
      exact absurd (Except.ok.inj (hold.symm.trans hfinds)) hother

theorem untouched (h : w.Runs fs a o) (hstatus : o.result = .ok .unchanged) :
    o.fileSystem = fs := by
  cases h with
  | kept => rfl
  | unread => rfl
  | refused => exact absurd hstatus (by simp)
  | written _ hnew _ =>
    cases hstatus
    exact absurd rfl hnew

/-- With any other status the file was written. -/
theorem overwritten (h : w.Runs fs a o) {status : WriteStatus} (hstatus : o.result = .ok status)
    (hnew : status ≠ .unchanged) : w.overwrite fs a = (o.fileSystem, .ok ()) := by
  cases h with
  | kept =>
    cases hstatus
    exact absurd rfl hnew
  | unread => exact absurd hstatus (by simp)
  | refused => exact absurd hstatus (by simp)
  | written hover _ _ => exact hover

theorem filesKept (h : w.Runs fs a o) {e : WriteError} (herror : o.result = .error e) :
    FilesKept fs o.fileSystem := by
  cases h with
  | kept => exact absurd herror (by simp)
  | unread => exact fun _ _ => Iff.rfl
  | refused hover _ =>
    rw [overwrite_eq_error hover]
    exact (makePath_grown fs w.directory).filesKept
  | written => exact absurd herror (by simp)

theorem leavesAt (h : w.Runs fs a o) (k : Location) : w.LeavesAt a fs o.fileSystem k := by
  cases h with
  | kept => exact .nothing rfl
  | unread => exact .nothing rfl
  | refused hover _ =>
    rw [overwrite_eq_error hover]
    exact w.leavesAt_makePath a fs k
  | written hover _ _ => exact leavesAt_overwrite hover k

theorem succeeds (h : w.Runs fs a o) {d : Location}
    (hdir : fs.resolve true w.directory = .ok (.found d .directory))
    (hfree : (∃ lines, fs.readLines (w.path a) = .ok lines) ∨
      ∃ parent name, fs.resolve true (w.path a) = .ok (.missing parent name)) :
    ∃ status, o.result = .ok status := by
  cases h with
  | kept => exact ⟨_, rfl⟩
  | unread h hthere =>
    rcases hfree with ⟨lines, hlines⟩ | ⟨parent, name, hr⟩
    · exact absurd (h.symm.trans hlines) (by simp)
    · exact absurd (isMissing_of_resolve hr h) (by simp [hthere])
  | refused hover _ =>
    obtain ⟨fs', hok⟩ := overwrite_succeeds hdir (hfree.imp_left fun hread => by
      obtain ⟨lines, hlines⟩ := hread
      obtain ⟨l, c, hr, -⟩ := readLines_eq_ok_iff.mp hlines
      exact ⟨l, c, hr⟩)
    exact absurd (hover.symm.trans hok) (by simp)
  | written => exact ⟨_, rfl⟩

end Runs

end Writer

/-- **The status of a write says what it did**, whatever the file system and the artifact are. -/
theorem write_accounted (w : Writer) (fs : FileSystem) (a : Artifact) :
    w.Accounted fs a (w.write fs a) := by
  have hextends := (w.write_does fs a).extend
  have hruns := w.write_runs fs a
  exact {
    unchanged_iff := hruns.unchanged_iff.trans readLines_eq_ok_iff
    untouched := hruns.untouched
    created := by
      intro hstatus
      obtain ⟨e, hread, hmissing⟩ := hruns.finds hstatus
      exact ⟨resolve_ne_found_of_isMissing hread hmissing,
        Writer.resolve_of_overwrite (hruns.overwritten hstatus (by decide))⟩
    updated := by
      intro hstatus
      obtain ⟨old, hold, hother⟩ := hruns.finds hstatus
      obtain ⟨l, c, hr, hlines⟩ := readLines_eq_ok_iff.mp hold
      obtain ⟨k, hk⟩ := Writer.resolve_of_overwrite (hruns.overwritten hstatus (by decide))
      -- the file is where it was
      obtain ⟨e, he, -⟩ := hextends.resolve_found hr
      cases hk.symm.trans he
      exact ⟨l, c, old, hr, hlines, hother, hk⟩
    directory := by
      rintro (hstatus | hstatus)
      · exact Writer.resolve_directory_of_overwrite (hruns.overwritten hstatus (by decide))
      · exact Writer.resolve_directory_of_overwrite (hruns.overwritten hstatus (by decide))
    failed := by
      intro e herror
      exact ⟨by rw [WriteOutcome.status, herror], hruns.filesKept herror⟩
    places := hruns.leavesAt
    kept := hextends
    succeeds := by
      rintro ⟨d, hdir⟩ hfree
      exact hruns.succeeds hdir hfree }

end StateForge
