import StateForge.Proofs.Artifact.Writing
import StateForge.Proofs.Diff.Hunks

/-!
# Diffs as patches

A diff is read by tools that know nothing of the program that wrote it. This file is such a tool. It
reads the text of a diff, and it changes the lines of a file as a diff says.

* `Patch.readHunks?` reads hunks. The ranges in the header of a hunk give the places of its lines,
  and a hunk that has not as many lines as they say is refused. `Patch.read?` also reads the two
  lines with the names of the files; `Patch.readNamed?` is for readers who know these names.
* `Patch.applyHunks?` changes the lines of a file. It takes nothing on trust: a hunk that begins
  before the end of the last one is refused, and so is one whose lines are not those of the file.

The lines of a diff are read as the hunks that they show (`Patch.readHunks?_show`), and hunks that
cover a change are a patch that makes it (`Patch.isPatch_of_covers`).
-/

set_option autoImplicit false

namespace StateForge

/-! ## Numbers -/

namespace Text

/-- The value of decimal digits. -/
def digitsValue (s : Text) : Nat :=
  s.foldl (fun n b => 10 * n + (b.toNat - 0x30)) 0

/-- The number that a text of decimal digits stands for. -/
def natural? (s : Text) : Option Nat :=
  if s ≠ [] ∧ s.Over isDigitByte then some s.digitsValue else none

/-- The byte for a digit. -/
def digitByte (d : Nat) : UInt8 :=
  UInt8.ofNat (0x30 + d)

theorem isDigitByte_digitByte {d : Nat} (h : d < 10) : isDigitByte (digitByte d) = true := by
  decide +revert

theorem toNat_digitByte {d : Nat} (h : d < 10) : (digitByte d).toNat - 0x30 = d := by
  decide +revert

theorem utf8EncodeChar_digitChar {d : Nat} (h : d < 10) :
    String.utf8EncodeChar d.digitChar = [digitByte d] := by
  decide +revert

/-- The last digit of a number, and the digits before it. -/
theorem decimal_eq (n : Nat) :
    decimal n = (if n < 10 then [] else decimal (n / 10)) ++ [digitByte (n % 10)] := by
  have hdigits : ∀ k, decimal k = (Nat.toDigits 10 k).flatMap String.utf8EncodeChar := by
    intro k
    rw [decimal, Nat.toString_eq_ofList_toDigits, ofString, String.toList_ofList]
  have hlast := utf8EncodeChar_digitChar (Nat.mod_lt n (by decide : 0 < 10))
  rw [hdigits n, Nat.toDigits_eq_if (by decide)]
  split
  · rename_i hn
    rw [Nat.mod_eq_of_lt hn] at hlast ⊢
    rw [List.flatMap_singleton, hlast, List.nil_append]
  · rw [List.flatMap_append, List.flatMap_singleton, hlast, hdigits]

theorem over_decimal (n : Nat) : (decimal n).Over isDigitByte := by
  induction n using Nat.strongRecOn with
  | ind n ih =>
    have hlast : Over isDigitByte [digitByte (n % 10)] := by
      intro b hb
      rw [List.mem_singleton.mp hb]
      exact isDigitByte_digitByte (Nat.mod_lt n (by decide))
    rw [decimal_eq]
    split
    · exact hlast
    · exact (ih (n / 10) (by omega)).append hlast

theorem digitsValue_decimal (n : Nat) : (decimal n).digitsValue = n := by
  induction n using Nat.strongRecOn with
  | ind n ih =>
    have hlast := toNat_digitByte (Nat.mod_lt n (by decide : 0 < 10))
    rw [decimal_eq, digitsValue, List.foldl_append, List.foldl_cons, List.foldl_nil, hlast]
    split
    · rw [List.foldl_nil]
      omega
    · rw [← digitsValue, ih (n / 10) (by omega)]
      omega

/-- **A number is read back from its digits.** -/
theorem natural?_decimal (n : Nat) : natural? (decimal n) = some n := by
  have hne : decimal n ≠ [] := by
    rw [decimal_eq]
    simp
  rw [natural?, if_pos ⟨hne, over_decimal n⟩, digitsValue_decimal]

end Text

namespace Patch

open Diff (StandsAt Covers)

/-! ## Hunks -/

/-- A line of a hunk. -/
inductive Line where
  /-- A line of both files. -/
  | context (text : Text)
  /-- A line of the old file only. -/
  | removed (text : Text)
  /-- A line of the new file only. -/
  | added (text : Text)
deriving DecidableEq

namespace Line

/-- The line as one of the old file. -/
def old? : Line → Option Text
  | context text => some text
  | removed text => some text
  | added _ => none

/-- The line as one of the new file. -/
def new? : Line → Option Text
  | context text => some text
  | removed _ => none
  | added text => some text

end Line

/-- Lines of two files, with the numbers of lines before them in the one and in the other. -/
structure Hunk where
  oldStart : Nat
  newStart : Nat
  lines : List Line
deriving DecidableEq

namespace Hunk

/-- The lines of the old file: the context and what is removed. -/
def before (h : Hunk) : List Text :=
  h.lines.filterMap Line.old?

/-- The lines of the new file: the context and what is added. -/
def after (h : Hunk) : List Text :=
  h.lines.filterMap Line.new?

end Hunk

/-! ## Reading -/

/-- Reads a line of a hunk. -/
def readLine? : Text → Option Line
  | 0x20 :: text => some (.context text)
  | 0x2d :: text => some (.removed text)
  | 0x2b :: text => some (.added text)
  | _ => none

/-- The number of lines before a range, and its length. A range that is not empty is given by the
number of its first line, and an empty one by the number of the line before it. -/
def locate? : Nat → Nat → Option (Nat × Nat)
  | n, 0 => some (n, 0)
  | n + 1, length + 1 => some (n, length + 1)
  | 0, _ + 1 => none

/-- Reads a range; the length may be left out if it is one. -/
def readRange? (s : Text) : Option (Nat × Nat) :=
  match (List.splitOn 0x2c s).mapM Text.natural? with
  | some [n] => locate? n 1
  | some [n, length] => locate? n length
  | _ => none

/-- Reads the header of a hunk, which gives the ranges of its lines in the two files. -/
def readHeader? (line : Text) : Option ((Nat × Nat) × (Nat × Nat)) :=
  match List.splitOn Text.space line with
  | [opening, old, new, closing] =>
    if opening = Text.ofString "@@" ∧ closing = Text.ofString "@@" then do
      let old ← Text.cutPrefix? "-" old
      let new ← Text.cutPrefix? "+" new
      return (← readRange? old, ← readRange? new)
    else none
  | _ => none

/-- Reads the lines up to the first header, and the hunks from there on. A hunk must have as many
lines as its header says. -/
def readParts? : List Text → Option (List Line × List Hunk)
  | [] => some ([], [])
  | line :: rest => do
    let (lines, hunks) ← readParts? rest
    match readLine? line with
    | some first => return (first :: lines, hunks)
    | none =>
      let (old, new) ← readHeader? line
      let hunk : Hunk := ⟨old.1, new.1, lines⟩
      if hunk.before.length = old.2 ∧ hunk.after.length = new.2 then return ([], hunk :: hunks)
      else none

/-- Reads hunks, of which the first begins with the first line. -/
def readHunks? (lines : List Text) : Option (List Hunk) :=
  match readParts? lines with
  | some ([], hunks) => some hunks
  | _ => none

/-- Reads a diff: two lines with the names of the files, and hunks. -/
def read? (text : Text) : Option (Text × Text × List Hunk) :=
  match Lines.splitFrom [] [] text with
  | first :: second :: rest => do
    let oldName ← Text.cutPrefix? "--- " first
    let newName ← Text.cutPrefix? "+++ " second
    return (oldName, newName, ← readHunks? rest)
  | _ => none

/-- Reads a diff between files with known names, in which there may be line feeds. -/
def readNamed? (oldName newName text : Text) : Option (List Hunk) := do
  let rest ← Text.cutPrefix? (Text.unlines ["--- " ++ oldName, "+++ " ++ newName]) text
  readHunks? (Lines.splitFrom [] [] rest)

/-! ## Applying -/

/-- Changes the lines of a file from the place of a hunk on: gives what comes of the lines that the
hunk covers, and those that follow. The lines that stay or go must be the lines of the file. -/
def applyLines? : List Line → List Text → Option (List Text × List Text)
  | [], old => some ([], old)
  | .context text :: lines, line :: old =>
    if line = text then (applyLines? lines old).map fun (new, rest) => (line :: new, rest) else none
  | .removed text :: lines, line :: old => if line = text then applyLines? lines old else none
  | .added text :: lines, old => (applyLines? lines old).map fun (new, rest) => (text :: new, rest)
  | _, [] => none

/-- Applies hunks to the lines of a file from line `i` on. -/
def applyFrom? (i : Nat) : List Hunk → List Text → Option (List Text)
  | [], old => some old
  | h :: hunks, old =>
    if i ≤ h.oldStart ∧ h.oldStart - i ≤ old.length then do
      let (new, rest) ← applyLines? h.lines (old.drop (h.oldStart - i))
      return old.take (h.oldStart - i) ++ (new ++
        (← applyFrom? (h.oldStart + h.before.length) hunks rest))
    else none

/-- Applies hunks to the lines of a file. -/
def applyHunks? (hunks : List Hunk) (old : List Text) : Option (List Text) :=
  applyFrom? 0 hunks old

/-- The hunks are a patch that makes the new lines out of the old ones. -/
structure IsPatch (hunks : List Hunk) (old new : List Text) : Prop where
  /-- The hunks are in order and do not overlap, in either file. -/
  ordered : hunks.Pairwise fun h k => h.oldStart + h.before.length ≤ k.oldStart ∧
    h.newStart + h.after.length ≤ k.newStart
  /-- The context and what is removed are lines of the old file, at the place that is stated. -/
  before_standsAt : ∀ h ∈ hunks, StandsAt h.before h.oldStart old
  /-- The context and what is added are lines of the new file, at the place that is stated. -/
  after_standsAt : ∀ h ∈ hunks, StandsAt h.after h.newStart new
  /-- Applying the hunks to the old lines gives the new ones. -/
  applied : applyHunks? hunks old = some new

/-! ## The hunks of a diff -/

/-- The lines of a piece. -/
def linesOfPiece : Diff.Piece → List Line
  | .same lines => lines.map .context
  | .change removed added => removed.map .removed ++ added.map .added

/-- A hunk of a script as one of a diff. -/
def ofHunk (h : Diff.Hunk) : Hunk :=
  ⟨h.oldStart, h.newStart, h.pieces.flatMap linesOfPiece⟩

theorem filterMap_linesOfPiece (piece : Diff.Piece) :
    (linesOfPiece piece).filterMap Line.old? = piece.before ∧
      (linesOfPiece piece).filterMap Line.new? = piece.after := by
  cases piece with
  | same lines => simp [linesOfPiece, Diff.Piece.before, Diff.Piece.after, List.filterMap_map,
      Function.comp_def, Line.old?, Line.new?]
  | change removed added => simp [linesOfPiece, Diff.Piece.before, Diff.Piece.after,
      List.filterMap_map, Function.comp_def, Line.old?, Line.new?]

@[simp] theorem oldStart_ofHunk (h : Diff.Hunk) : (ofHunk h).oldStart = h.oldStart := rfl

@[simp] theorem newStart_ofHunk (h : Diff.Hunk) : (ofHunk h).newStart = h.newStart := rfl

@[simp] theorem before_ofHunk (h : Diff.Hunk) : (ofHunk h).before = h.before := by
  simp only [Hunk.before, ofHunk, List.filterMap_flatMap, filterMap_linesOfPiece]
  rfl

@[simp] theorem after_ofHunk (h : Diff.Hunk) : (ofHunk h).after = h.after := by
  simp only [Hunk.after, ofHunk, List.filterMap_flatMap, filterMap_linesOfPiece]
  rfl

/-! ### Reading them -/

/-- A line of a hunk as it is shown. -/
def Line.show : Line → Text
  | context text => 0x20 :: text
  | removed text => 0x2d :: text
  | added text => 0x2b :: text

theorem show_piece (piece : Diff.Piece) : piece.show = (linesOfPiece piece).map Line.show := by
  cases piece with
  | same lines =>
    rw [linesOfPiece, List.map_map]
    rfl
  | change removed added =>
    rw [linesOfPiece, List.map_append, List.map_map, List.map_map]
    rfl

theorem flatMap_show (h : Diff.Hunk) :
    h.pieces.flatMap Diff.Piece.show = (ofHunk h).lines.map Line.show := by
  rw [ofHunk, List.map_flatMap]
  exact List.flatMap_congr fun piece _ => show_piece piece

theorem readLine?_show (line : Line) : readLine? line.show = some line := by
  cases line <;> rfl

/-- Lines before the first header. -/
theorem readParts?_lines {rest : List Text} {more : List Line} {hunks : List Hunk}
    (h : readParts? rest = some (more, hunks)) (lines : List Line) :
    readParts? (lines.map Line.show ++ rest) = some (lines ++ more, hunks) := by
  induction lines with
  | nil => exact h
  | cons line lines ih =>
    rw [List.map_cons, List.cons_append, readParts?, ih]
    simp [readLine?_show]

/-- The numbers that are written for a range. -/
def rangeNumbers (start : Nat) : Nat → List Nat
  | 0 => [start, 0]
  | 1 => [start + 1]
  | length => [start + 1, length]

theorem range_eq (start length : Nat) :
    Diff.range start length
      = [(0x2c : UInt8)].intercalate ((rangeNumbers start length).map Text.decimal) := by
  rw [Diff.range]
  split
  · rename_i hone
    rw [hone]
    exact List.intercalate_singleton.symm
  · split
    · rename_i hzero
      rw [hzero, rangeNumbers, List.map_cons, List.map_cons, List.map_nil,
        List.intercalate_cons_cons, List.intercalate_singleton, List.append_assoc]
      rfl
    · rename_i hone hzero
      rw [rangeNumbers.eq_3 _ _ hzero hone, List.map_cons, List.map_cons, List.map_nil,
        List.intercalate_cons_cons, List.intercalate_singleton]
      rfl

theorem rangeNumbers_ne_nil (start length : Nat) : rangeNumbers start length ≠ [] := by
  rcases length with _ | _ | length <;> exact List.cons_ne_nil _ _

theorem over_range (start length : Nat) :
    (Diff.range start length).Over fun b => isDigitByte b || b == 0x2c := by
  rw [range_eq]
  refine Text.Over.intercalate (by decide) fun w hw => ?_
  obtain ⟨n, -, rfl⟩ := List.mem_map.mp hw
  exact (Text.over_decimal n).imp fun b hb => by rw [hb, Bool.true_or]

theorem splitOn_range (start length : Nat) :
    List.splitOn 0x2c (Diff.range start length) = (rangeNumbers start length).map Text.decimal := by
  rw [range_eq]
  refine List.splitOn_intercalate _ (fun w hw => ?_) (by simp [rangeNumbers_ne_nil])
  obtain ⟨n, -, rfl⟩ := List.mem_map.mp hw
  exact (Text.over_decimal n).notMem (by decide)

/-- **A range is read back**, also an empty one. -/
theorem readRange?_range (start length : Nat) :
    readRange? (Diff.range start length) = some (start, length) := by
  have hnumbers : ((rangeNumbers start length).map Text.decimal).mapM Text.natural?
      = some (rangeNumbers start length) := by
    rcases length with _ | _ | length <;>
      simp [rangeNumbers, List.mapM_cons, Text.natural?_decimal]
  rw [readRange?, splitOn_range, hnumbers]
  rcases length with _ | _ | length <;> rfl

/-- The ranges in the header of a hunk are read back. -/
theorem readHeader?_header (old new : Nat × Nat) :
    readHeader? ("@@ -" ++ Diff.range old.1 old.2 ++ " +" ++ Diff.range new.1 new.2 ++ " @@")
      = some (old, new) := by
  have hwords : "@@ -" ++ Diff.range old.1 old.2 ++ " +" ++ Diff.range new.1 new.2 ++ " @@"
      = [Text.space].intercalate [Text.ofString "@@", "-" ++ Diff.range old.1 old.2,
          "+" ++ Diff.range new.1 new.2, Text.ofString "@@"] := by
    simp only [List.intercalate_cons_cons, List.intercalate_singleton, List.append_assoc]
    rfl
  have hspace : ∀ start length, Text.space ∉ Diff.range start length := fun start length =>
    (over_range start length).notMem (by decide)
  have hparts : ∀ part ∈ [Text.ofString "@@", "-" ++ Diff.range old.1 old.2,
      "+" ++ Diff.range new.1 new.2, Text.ofString "@@"], Text.space ∉ part := by
    simp only [List.forall_mem_cons, List.mem_append, hspace, or_false]
    decide
  rw [hwords, readHeader?, List.splitOn_intercalate _ hparts (List.cons_ne_nil _ _)]
  simp [Text.cutPrefix?_append, readRange?_range]

/-- A header with the right numbers makes a hunk of the lines up to the next one. -/
theorem readParts?_header {header : Text} {rest : List Text} {old new : Nat × Nat}
    {lines : List Line} {hunks : List Hunk} (hfirst : readLine? header = none)
    (hheader : readHeader? header = some (old, new))
    (hrest : readParts? rest = some (lines, hunks))
    (hold : (Hunk.before ⟨old.1, new.1, lines⟩).length = old.2)
    (hnew : (Hunk.after ⟨old.1, new.1, lines⟩).length = new.2) :
    readParts? (header :: rest) = some ([], ⟨old.1, new.1, lines⟩ :: hunks) := by
  rw [readParts?, hrest]
  simp [hfirst, hheader, hold, hnew]

theorem readParts?_show {rest : List Text} {hunks : List Hunk}
    (hrest : readParts? rest = some ([], hunks)) (h : Diff.Hunk) :
    readParts? (h.show ++ rest) = some ([], ofHunk h :: hunks) := by
  have hparts := readParts?_lines hrest (ofHunk h).lines
  rw [List.append_nil, ← flatMap_show] at hparts
  exact readParts?_header rfl
    (readHeader?_header (h.oldStart, h.before.length) (h.newStart, h.after.length)) hparts
    (congrArg List.length (before_ofHunk h)) (congrArg List.length (after_ofHunk h))

/-- **The lines of a diff are read as the hunks that they show.** -/
theorem readHunks?_show (hs : List Diff.Hunk) :
    readHunks? (hs.flatMap Diff.Hunk.show) = some (hs.map ofHunk) := by
  have hparts : readParts? (hs.flatMap Diff.Hunk.show) = some ([], hs.map ofHunk) := by
    induction hs with
    | nil => rfl
    | cons h hs ih => exact readParts?_show ih h
  rw [readHunks?, hparts]

/-! ### Applying them -/

/-- The lines of a hunk turn what it has before into what it has after. -/
theorem applyLines?_append (lines : List Line) (rest : List Text) :
    applyLines? lines (lines.filterMap Line.old? ++ rest)
      = some (lines.filterMap Line.new?, rest) := by
  induction lines with
  | nil => rfl
  | cons line lines ih =>
    cases line with
    | context text => simp [Line.old?, Line.new?, applyLines?, ih]
    | removed text => simp [List.filterMap_cons, Line.old?, Line.new?, applyLines?, ih]
    | added text => simp [List.filterMap_cons, Line.old?, Line.new?, applyLines?, ih]

theorem applyFrom?_of_covers {i j : Nat} {hs : List Diff.Hunk} {old new : List Text}
    (h : Covers i j hs old new) : applyFrom? i (hs.map ofHunk) old = some new := by
  induction h with
  | rest => rfl
  | @hunk i j h hs old new gap hold _ _ ih =>
    have hgap : (ofHunk h).oldStart - i = gap.length := by
      rw [oldStart_ofHunk]
      omega
    have hlines : applyLines? (ofHunk h).lines (h.before ++ old) = some (h.after, old) := by
      rw [← before_ofHunk, ← after_ofHunk]
      exact applyLines?_append _ old
    rw [List.map_cons, applyFrom?, hgap, if_pos ⟨by rw [oldStart_ofHunk]; omega, by simp⟩,
      List.drop_left, List.take_left, hlines]
    simp [ih]

/-- **Hunks that cover a change are a patch that makes it.** -/
theorem isPatch_of_covers {hs : List Diff.Hunk} {old new : List Text}
    (h : Covers 0 0 hs old new) : IsPatch (hs.map ofHunk) old new where
  ordered := List.pairwise_map.mpr (by simpa using h.pairwise)
  before_standsAt := by
    simpa using fun k hk => (h.standsAt k hk).1
  after_standsAt := by
    simpa using fun k hk => (h.standsAt k hk).2
  applied := applyFrom?_of_covers h

/-! ## Whole diffs -/

theorem newline_notMem_header (old new : Nat × Nat) :
    Text.newline ∉ "@@ -" ++ Diff.range old.1 old.2 ++ " +" ++ Diff.range new.1 new.2 ++ " @@" := by
  have hrange : ∀ start length, Text.newline ∉ Diff.range start length := fun start length =>
    (over_range start length).notMem (by decide)
  simp only [List.mem_append, hrange, or_false]
  decide

/-- The lines of a hunk are lines of the one file or of the other. -/
theorem newline_notMem_show {h : Diff.Hunk} (hbefore : ∀ line ∈ h.before, Text.newline ∉ line)
    (hafter : ∀ line ∈ h.after, Text.newline ∉ line) : ∀ line ∈ h.show, Text.newline ∉ line := by
  rw [Diff.Hunk.show, flatMap_show]
  refine List.forall_mem_cons.mpr
    ⟨newline_notMem_header (h.oldStart, h.before.length) (h.newStart, h.after.length), ?_⟩
  intro line hline
  obtain ⟨l, hl, rfl⟩ := List.mem_map.mp hline
  rw [← before_ofHunk] at hbefore
  rw [← after_ofHunk] at hafter
  cases l with
  | context text =>
    exact List.not_mem_cons_of_ne_of_not_mem (by decide)
      (hbefore text (List.mem_filterMap.mpr ⟨_, hl, rfl⟩))
  | removed text =>
    exact List.not_mem_cons_of_ne_of_not_mem (by decide)
      (hbefore text (List.mem_filterMap.mpr ⟨_, hl, rfl⟩))
  | added text =>
    exact List.not_mem_cons_of_ne_of_not_mem (by decide)
      (hafter text (List.mem_filterMap.mpr ⟨_, hl, rfl⟩))

/-- **A diff between two different files is a patch** that makes the new one out of the old one, if
no line has a line feed in it. The names of the files can be read as well, if there is no line feed
in them either. -/
theorem isPatch_unified (oldName newName : Text) {old new : List Text} (hne : old ≠ new)
    (hold : ∀ line ∈ old, Text.newline ∉ line) (hnew : ∀ line ∈ new, Text.newline ∉ line) :
    ∃ hunks, IsPatch hunks old new ∧
      readNamed? oldName newName (Text.unlines (Diff.unified oldName newName old new))
        = some hunks ∧
      (Text.newline ∉ oldName → Text.newline ∉ newName →
        read? (Text.unlines (Diff.unified oldName newName old new))
          = some (oldName, newName, hunks)) := by
  have hcovers := Diff.covers_hunks (Diff.isScript_script old new)
  have hplain : ∀ line ∈ (Diff.hunks (Diff.script old new)).flatMap Diff.Hunk.show,
      Text.newline ∉ line := by
    intro line hline
    obtain ⟨h, hh, hline⟩ := List.mem_flatMap.mp hline
    obtain ⟨hbefore, hafter⟩ := hcovers.standsAt h hh
    exact newline_notMem_show (fun line hline => hold line (hbefore.subset hline))
      (fun line hline => hnew line (hafter.subset hline)) line hline
  have hshown : Diff.unified oldName newName old new = ("--- " ++ oldName) :: ("+++ " ++ newName) ::
      (Diff.hunks (Diff.script old new)).flatMap Diff.Hunk.show := by
    rw [Diff.unified]
    split
    · exact absurd ‹_› (hcovers.ne_nil hne)
    · rfl
  refine ⟨_, isPatch_of_covers hcovers, ?_, fun holdName hnewName => ?_⟩
  · have hunlines : Text.unlines (Diff.unified oldName newName old new)
        = Text.unlines ["--- " ++ oldName, "+++ " ++ newName] ++
          Text.unlines ((Diff.hunks (Diff.script old new)).flatMap Diff.Hunk.show) := by
      rw [hshown]
      simp [Text.unlines]
    rw [readNamed?, hunlines, Text.cutPrefix?_append, Option.bind_eq_bind, Option.bind_some,
      Lines.splitFrom_unlines hplain]
    exact readHunks?_show _
  · have hnames : Text.newline ∉ "--- " ++ oldName ∧ Text.newline ∉ "+++ " ++ newName := by
      simp only [List.mem_append, holdName, hnewName, or_false]
      decide
    have hlines : ∀ line ∈ Diff.unified oldName newName old new, Text.newline ∉ line := by
      rw [hshown]
      exact List.forall_mem_cons.mpr ⟨hnames.1, List.forall_mem_cons.mpr ⟨hnames.2, hplain⟩⟩
    rw [read?, Lines.splitFrom_unlines hlines, hshown]
    simp [Text.cutPrefix?_append, readHunks?_show]

end Patch
end StateForge
