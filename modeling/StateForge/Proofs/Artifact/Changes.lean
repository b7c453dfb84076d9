import StateForge.Proofs.Artifact.LineEnds
import StateForge.Proofs.Diff.Patch

/-!
# What a verbose write shows

A verbose writer shows what changes in a file before the file gets its new lines. What it shows can
be relied on: it is the text of a patch, and the patch makes the new lines out of the old ones
(`updated_shows_patch`).

The lines that are read from a file never have a line feed in them
(`Lines.newline_notMem_of_ofContent?`), so only the new lines and the path could spoil the text. The
new lines must not have one. A path may have one, but then only a reader who knows it can tell where
the first two lines end.
-/

set_option autoImplicit false

namespace StateForge

namespace Lines

theorem dropCarriageReturn_subset (line : Text) : dropCarriageReturn line ⊆ line := by
  rw [dropCarriageReturn]
  split
  · exact List.dropLast_subset line
  · exact List.Subset.refl line

/-- **The lines that are read from a file have no line feed in them.** -/
theorem newline_notMem_of_ofContent? {c : Text} {lines : List Text}
    (h : ofContent? c = some lines) : ∀ line ∈ lines, Text.newline ∉ line := by
  obtain ⟨written, rest, rfl, hwritten, hrest⟩ := exists_unlines c
  rw [ofContent?, splitFrom_unlines_append hwritten hrest, List.reverse_nil, List.nil_append] at h
  obtain ⟨-, hlines⟩ := (Option.ite_none_right_eq_some ..).mp h
  cases hlines
  intro line hline hnewline
  obtain ⟨raw, hraw, rfl⟩ := List.mem_map.mp hline
  have hnewline := dropCarriageReturn_subset raw hnewline
  rcases List.mem_append.mp hraw with hraw | hraw
  · exact hwritten raw hraw hnewline
  · rw [restLine] at hraw
    split at hraw
    · exact absurd hraw (by simp)
    · exact hrest (List.mem_singleton.mp hraw ▸ hnewline)

end Lines

/-- The text that a write prints. -/
def WriteOutcome.printed (o : WriteOutcome) : Text :=
  Text.unlines o.shown

/-- A verbose write of other lines shows the changes. -/
theorem Writer.shown_write {w : Writer} {fs : FileSystem} {a : Artifact} {old : List Text}
    (hverbose : w.verbose = true) (hread : fs.readLines (w.path a) = .ok old)
    (hother : old ≠ a.lines) : (w.write fs a).shown = w.diff a old := by
  rw [write, hread]
  simp only [beq_iff_eq, if_neg hother, if_pos hverbose]

/-- **What a verbose write shows is a patch**, whenever it gives a file new lines that have no line
feed in them. The text that is printed is not empty. It is read as two lines with the names of the
files and a number of hunks, which are in order, do not overlap, show lines of the old file and of
the new one at the places that they state, and make the new lines out of the old ones. A reader who
does not know the names gets them as well, if the path has no line feed in it. -/
theorem updated_shows_patch {w : Writer} {fs : FileSystem} {a : Artifact}
    (hverbose : w.verbose = true) (hlines : ∀ line ∈ a.lines, Text.newline ∉ line)
    (hupdated : (w.write fs a).result = .ok .updated) :
    ∃ old hunks, fs.readLines (w.path a) = .ok old ∧ (w.write fs a).printed ≠ [] ∧
      Patch.readNamed? (w.path a ++ " (当前)") (w.path a ++ " (生成)") (w.write fs a).printed
        = some hunks ∧
      (Text.newline ∉ w.path a → Patch.read? (w.write fs a).printed
        = some (w.path a ++ " (当前)", w.path a ++ " (生成)", hunks)) ∧
      Patch.IsPatch hunks old a.lines := by
  obtain ⟨old, hread, hother⟩ := (w.write_runs fs a).finds hupdated
  obtain ⟨l, c, -, hold⟩ := FileSystem.readLines_eq_ok_iff.mp hread
  obtain ⟨hunks, hpatch, hnamed, hnames⟩ := Patch.isPatch_unified
    (w.path a ++ Text.ofString " (当前)") (w.path a ++ Text.ofString " (生成)") hother
    (Lines.newline_notMem_of_ofContent? hold) hlines
  rw [WriteOutcome.printed, Writer.shown_write hverbose hread hother, Writer.diff]
  refine ⟨old, hunks, hread, ?_, hnamed, fun hpath => ?_, hpatch⟩
  · intro hempty
    rw [hempty] at hnamed
    exact absurd (hnamed.symm.trans rfl : some hunks = none) (by simp)
  · have hname : ∀ note : Text, Text.newline ∉ note → Text.newline ∉ w.path a ++ note :=
      fun note hnote => by simp [hpath, hnote]
    exact hnames (hname _ (by decide)) (hname _ (by decide))

/-- A note of seven lines. -/
def olderNote : FileSystem :=
  noteFiles "a\nb\nc\nd\ne\nf\ng\n"

/-- The note with another line in front and without its last line. -/
def shiftedNote : Artifact :=
  ⟨"note", ["x", "a", "b", "c", "d", "e", "f"]⟩

/-- The lines in the middle stay and are not shown, so there are two hunks here. The second one
stands at different places in the two files. -/
theorem shiftedNote_shows_patch :
    let outcome := (Writer.make "" true).write olderNote shiftedNote
    outcome.result = .ok .updated ∧
    outcome.shown = ["--- note (当前)", "+++ note (生成)", "@@ -1,2 +1,3 @@", "+x", " a", " b",
      "@@ -5,3 +6,2 @@", " e", " f", "-g"] ∧
    ∃ hunks, Patch.read? outcome.printed
        = some (Text.ofString "note (当前)", Text.ofString "note (生成)", hunks) ∧
      Patch.IsPatch hunks ["a", "b", "c", "d", "e", "f", "g"] shiftedNote.lines := by
  have hupdated : ((Writer.make "" true).write olderNote shiftedNote).result = .ok .updated :=
    eq_ok_of_toOption_eq_some (by decide +kernel)
  have hold : olderNote.readLines ((Writer.make "" true).path shiftedNote)
      = .ok ["a", "b", "c", "d", "e", "f", "g"] :=
    eq_ok_of_toOption_eq_some (by decide +kernel)
  obtain ⟨old, hunks, hread, -, -, hnames, hpatch⟩ :=
    updated_shows_patch (w := .make "" true) rfl (by decide +kernel) hupdated
  cases hold.symm.trans hread
  have holdName : (Writer.make "" true).path shiftedNote ++ Text.ofString " (当前)"
      = Text.ofString "note (当前)" := by decide +kernel
  have hnewName : (Writer.make "" true).path shiftedNote ++ Text.ofString " (生成)"
      = Text.ofString "note (生成)" := by decide +kernel
  rw [holdName, hnewName] at hnames
  exact ⟨hupdated, by decide +kernel, hunks, hnames (by decide +kernel), hpatch⟩

end StateForge
