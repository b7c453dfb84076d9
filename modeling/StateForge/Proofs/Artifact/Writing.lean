import StateForge.Artifact.Writer
import StateForge.Proofs.Alphabet
import StateForge.Proofs.FileSystem.Growth

/-!
# Writing an artifact

What is written to a file as lines is read back as the same lines, if each of them is plain and
short enough (`Lines.ofContent?_unlines`).

`Writer.Runs` gives the ways in which a write can go, together with what it found at the path of the
artifact (`Writer.Finds`). `Writer.Does` keeps of that what a write can do to a file system:
nothing, if the lines are there already; make directories and give one file its content; or fail,
having made directories at most. Everything else about writing is derived from the two.
-/

set_option autoImplicit false

namespace StateForge

/-! ## Lines -/

namespace Lines

theorem splitFrom_line {s : Text} (hs : Text.newline ∉ s) (lines : List Text) (line rest : Text) :
    splitFrom lines line (s ++ Text.newline :: rest)
      = splitFrom ((line.reverse ++ s) :: lines) [] rest := by
  induction s generalizing line with
  | nil => rw [List.nil_append, splitFrom, if_pos rfl, List.append_nil]
  | cons b s ih =>
    rw [List.mem_cons, not_or] at hs
    rw [List.cons_append, splitFrom, if_neg (Ne.symm hs.1), ih hs.2]
    simp

/-- The rest counts as a line if there is one. -/
def restLine (rest : Text) : List Text :=
  if rest = [] then [] else [rest]

theorem splitFrom_rest {rest : Text} (h : Text.newline ∉ rest) (lines : List Text) (line : Text) :
    splitFrom lines line rest = lines.reverse ++ restLine (line.reverse ++ rest) := by
  induction rest generalizing line with
  | nil =>
    rw [splitFrom, List.append_nil, restLine]
    cases line <;> simp
  | cons b rest ih =>
    rw [List.mem_cons, not_or] at h
    rw [splitFrom, if_neg (Ne.symm h.1), ih h.2]
    simp

/-- **The lines that are read** are those with a line feed, and the rest. -/
theorem splitFrom_unlines_append {written : List Text} {rest : Text}
    (h : ∀ line ∈ written, Text.newline ∉ line) (hrest : Text.newline ∉ rest) (lines : List Text) :
    splitFrom lines [] (Text.unlines written ++ rest)
      = lines.reverse ++ written ++ restLine rest := by
  induction written generalizing lines with
  | nil => simpa [Text.unlines] using splitFrom_rest hrest lines []
  | cons line written ih =>
    obtain ⟨hline, hwritten⟩ := List.forall_mem_cons.mp h
    rw [Text.unlines_cons, List.append_assoc, List.cons_append, splitFrom_line hline, ih hwritten]
    simp

theorem splitFrom_unlines {written : List Text} (h : ∀ line ∈ written, Text.newline ∉ line)
    (lines : List Text) :
    splitFrom lines [] (Text.unlines written) = lines.reverse ++ written := by
  have hsplit := splitFrom_unlines_append h (List.not_mem_nil (a := Text.newline)) lines
  rwa [List.append_nil, restLine, if_pos rfl, List.append_nil] at hsplit

/-- **Lines that are written are read back**, if they are plain and short enough. -/
theorem ofContent?_unlines {lines : List Text} (hplain : ∀ line ∈ lines, line.IsPlain)
    (hshort : ∀ line ∈ lines, line.length ≤ maxLength) :
    ofContent? (Text.unlines lines) = some lines := by
  have hraw : splitFrom [] [] (Text.unlines lines) = lines :=
    splitFrom_unlines (fun line hline => (hplain line hline).no_newline) []
  have hdrop : lines.map dropCarriageReturn = lines := by
    conv => rhs; rw [← List.map_id lines]
    refine List.map_congr_left fun line hline => ?_
    rw [dropCarriageReturn, if_neg (hplain line hline).no_return, id]
  rw [ofContent?, hraw, if_pos (by simpa using hshort), hdrop]

end Lines

/-- A file that can be read as lines, and what is in it. -/
theorem FileSystem.readLines_eq_ok_iff {fs : FileSystem} {path : Text} {lines : List Text} :
    fs.readLines path = .ok lines ↔
      ∃ l c, fs.resolve true path = .ok (.found l (.file c)) ∧ Lines.ofContent? c = some lines := by
  constructor
  · intro h
    rw [readLines, openFile] at h
    split at h
    · exact absurd h (by simp)
    · rename_i opened hopened
      split at hopened
      · exact absurd hopened (by simp)
      · rename_i l c hr
        cases hopened
        rw [Opened.read] at h
        simp only at h
        split at h
        · cases h
          exact ⟨l, c, hr, ‹_›⟩
        · exact absurd h (by simp)
      · cases hopened
        exact absurd h (by simp [Opened.read])
      · exact absurd hopened (by simp)
      · exact absurd hopened (by simp)
  · rintro ⟨l, c, hr, hlines⟩
    rw [readLines, openFile, hr]
    simp only [Opened.read, hlines]

/-! ## The ways a write can go -/

open FileSystem

namespace Writer

/-- What a write finds at the path of the artifact, by the status that it reports in the end. -/
def Finds (w : Writer) (fs : FileSystem) (a : Artifact) : WriteStatus → Prop
  | .unchanged => fs.readLines (w.path a) = .ok a.lines
  | .created => ∃ e, fs.readLines (w.path a) = .error e ∧ e.isMissing = true
  | .updated => ∃ old, fs.readLines (w.path a) = .ok old ∧ old ≠ a.lines

/-- The ways a write can go. -/
inductive Runs (w : Writer) (fs : FileSystem) (a : Artifact) : WriteOutcome → Prop
  /-- The lines are there already. -/
  | kept (h : w.Finds fs a .unchanged) : Runs w fs a ⟨fs, [], .ok .unchanged⟩
  /-- There is something that cannot be read. -/
  | unread {e : ReadError} (h : fs.readLines (w.path a) = .error e) (hthere : e.isMissing = false) :
      Runs w fs a ⟨fs, [], .error (.read (w.path a) e)⟩
  /-- The directories could not be made, or the file could not be written. -/
  | refused {fs' : FileSystem} {shown : List Text} {e : WriteError}
      (hover : w.overwrite fs a = (fs', .error e)) (hother : ¬ w.Finds fs a .unchanged) :
      Runs w fs a ⟨fs', shown, .error e⟩
  /-- The file was written. -/
  | written {fs' : FileSystem} {shown : List Text} {status : WriteStatus}
      (hover : w.overwrite fs a = (fs', .ok ())) (hnew : status ≠ .unchanged)
      (h : w.Finds fs a status) : Runs w fs a ⟨fs', shown, .ok status⟩

theorem write_runs (w : Writer) (fs : FileSystem) (a : Artifact) : w.Runs fs a (w.write fs a) := by
  have hover : ∀ (shown : List Text) (status : WriteStatus), status ≠ .unchanged →
      w.Finds fs a status → ¬ w.Finds fs a .unchanged → w.Runs fs a
        ⟨(w.overwrite fs a).1, shown, (w.overwrite fs a).2.map fun _ => status⟩ := by
    intro shown status hnew h hother
    cases hresult : w.overwrite fs a with
    | mk fs' result =>
      cases result with
      | error e => exact .refused hresult hother
      | ok u => exact .written hresult hnew h
  rw [write]
  split
  · rename_i e hread
    split
    · exact hover [] .created (by decide) ⟨e, hread, ‹_›⟩ (by simp [Finds, hread])
    · exact .unread hread (by simpa using ‹¬ e.isMissing = true›)
  · rename_i old hread
    split
    · rename_i hsame
      exact .kept (by rw [Finds, hread, eq_of_beq hsame])
    · rename_i hother
      have hne : old ≠ a.lines := by simpa using hother
      exact hover _ .updated (by decide) ⟨old, hread, hne⟩ (by simpa [Finds, hread] using hne)

variable {w : Writer} {fs fs' : FileSystem} {a : Artifact}

/-- Writing over a file is making the directory and then writing, if that could be done. -/
theorem overwrite_eq_ok (h : w.overwrite fs a = (fs', .ok ())) :
    (fs.makePath w.directory).1.writeFile (w.path a) a.content = .ok fs' := by
  rw [overwrite] at h
  split at h
  · exact absurd h (by simp)
  · rename_i hpath
    rw [hpath]
    split at h
    · exact absurd h (by simp)
    · cases h
      exact ‹_›

/-- If it fails, nothing was done but making the directory. -/
theorem overwrite_eq_error {e : WriteError} (h : w.overwrite fs a = (fs', .error e)) :
    fs' = (fs.makePath w.directory).1 := by
  rw [overwrite] at h
  split at h
  · rename_i hpath
    cases h
    rw [hpath]
  · rename_i hpath
    split at h
    · cases h
      rw [hpath]
    · exact absurd h (by simp)

end Writer

/-! ## What a write can do -/

/-- What a write can do: the file system after it, and its result. This is coarser than
`Writer.Runs`, as it leaves open what was found and how a status is chosen. -/
inductive Writer.Does (w : Writer) (fs : FileSystem) (a : Artifact) :
    FileSystem → Except WriteError WriteStatus → Prop
  /-- The lines are there already. -/
  | nothing (h : fs.readLines (w.path a) = .ok a.lines) : Does w fs a fs (.ok .unchanged)
  /-- The directories are there or were made, and the file got its content. -/
  | file {between after : FileSystem} {status : WriteStatus}
      (hgrown : GrownTowards w.directory fs between)
      (hwrite : between.writeFile (w.path a) a.content = .ok after) : Does w fs a after (.ok status)
  /-- Something was refused. -/
  | failure {after : FileSystem} {e : WriteError} (hgrown : GrownTowards w.directory fs after) :
      Does w fs a after (.error e)

theorem Writer.Runs.does {w : Writer} {fs : FileSystem} {a : Artifact} {o : WriteOutcome}
    (h : w.Runs fs a o) : w.Does fs a o.fileSystem o.result := by
  have hgrown := makePath_grown fs w.directory
  cases h with
  | kept h => exact .nothing h
  | unread => exact .failure (.refl _ fs)
  | refused hover => exact .failure (overwrite_eq_error hover ▸ hgrown)
  | written hover => exact .file hgrown (overwrite_eq_ok hover)

theorem Writer.write_does (w : Writer) (fs : FileSystem) (a : Artifact) :
    w.Does fs a (w.write fs a).fileSystem (w.write fs a).result :=
  (w.write_runs fs a).does

namespace Writer.Does

variable {w : Writer} {fs fs' : FileSystem} {a : Artifact}

/-- A write takes nothing away. -/
theorem extend {result : Except WriteError WriteStatus} (h : w.Does fs a fs' result) :
    fs.Extends fs' := by
  cases h with
  | nothing => exact .refl fs
  | file hgrown hwrite =>
    obtain ⟨l, -, -, hextends, -⟩ := writeFile_spec hwrite
    exact hgrown.extend.trans hextends
  | failure hgrown => exact hgrown.extend

/-- **After a write that succeeded, the path leads to a file with the lines of the artifact.** -/
theorem found {status : WriteStatus} (h : w.Does fs a fs' (.ok status))
    (hread : Lines.ofContent? a.content = some a.lines) :
    ∃ l c, fs'.resolve true (w.path a) = .ok (.found l (.file c)) ∧
      Lines.ofContent? c = some a.lines := by
  cases h with
  | nothing hsame => exact readLines_eq_ok_iff.mp hsame
  | file hgrown hwrite =>
    obtain ⟨l, -, -, -, hr⟩ := writeFile_spec hwrite
    exact ⟨l, a.content, hr, hread⟩

/-- **A write leaves other files alone**, whether it succeeds or not. -/
theorem resolve_kept {result : Except WriteError WriteStatus} (h : w.Does fs a fs' result)
    {p c : Text} {l : Location} (hp : fs.resolve true p = .ok (.found l (.file c)))
    (hother : ¬ fs'.SameFile p (w.path a)) : fs'.resolve true p = .ok (.found l (.file c)) := by
  refine h.extend.resolve_file_of_kept hp ?_
  obtain ⟨c', hp', -⟩ := h.extend.resolve_file hp
  cases h with
  | nothing => exact get?_of_resolve_file hp
  | failure hgrown => exact (hgrown.filesKept l c).mpr (get?_of_resolve_file hp)
  | file hgrown hwrite =>
    obtain ⟨k, hne, rfl, -, hr⟩ := writeFile_spec hwrite
    have hlk : l ≠ k := by
      rintro rfl
      exact hother (sameFile_of_resolve hp' hr)
    rw [get?_set hne, if_neg hlk]
    exact (hgrown.filesKept l c).mpr (get?_of_resolve_file hp)

/-- **Two writes that succeeded**: the second artifact can be read back, and the first one as well
unless both paths lead to one file. -/
theorem readBack_pair {b : Artifact} {fs'' : FileSystem} {status status' : WriteStatus}
    (hfirst : w.Does fs a fs' (.ok status)) (hsecond : w.Does fs' b fs'' (.ok status'))
    (ha : Lines.ofContent? a.content = some a.lines)
    (hb : Lines.ofContent? b.content = some b.lines) (hne : a.lines ≠ b.lines) :
    fs''.readLines (w.path b) = .ok b.lines ∧
    (fs''.readLines (w.path a) = .ok a.lines ↔ ¬ fs''.SameFile (w.path a) (w.path b)) := by
  obtain ⟨l, c, hr, hlines⟩ := hfirst.found ha
  have hread := readLines_eq_ok_iff.mpr (hsecond.found hb)
  refine ⟨hread, ?_, fun hother => ?_⟩
  · rintro hread' ⟨k, d, hra, hrb⟩
    rw [readLines_eq_ok_iff] at hread hread'
    obtain ⟨k', d', hrb', hlinesb⟩ := hread
    obtain ⟨l', c', hra', hlinesa⟩ := hread'
    cases hra.symm.trans hra'
    cases hrb.symm.trans hrb'
    exact hne (Option.some.inj (hlinesa.symm.trans hlinesb))
  · exact readLines_eq_ok_iff.mpr ⟨l, c, hsecond.resolve_kept hr hother, hlines⟩

end Writer.Does

end StateForge
