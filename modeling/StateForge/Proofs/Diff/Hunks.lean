import StateForge.Diff.Unified
import StateForge.Proofs.Diff.Script

/-!
# What the hunks of a script show

The hunks of a script are parts of it, with the numbers of lines before them. `Covers` says that
they leave nothing out: the lines before, between and after them stay. The hunks of every script
cover it (`covers_hunks`), although lines that stay are shortened at the beginning, at the end and
in the middle.

All else follows from that by induction on the hunks. They are in order and do not overlap
(`Covers.pairwise`), their lines stand at the places that they name (`Covers.standsAt`), and there
is at least one of them if there is any change (`Covers.ne_nil`).
-/

set_option autoImplicit false

namespace StateForge
namespace Diff

/-! ## Hunks that cover a change -/

/-- From line `i` of the old file and line `j` of the new one on, the hunks show how the old lines
become the new ones: each begins as many lines further on as stand in the gap before it, and what
they do not show stays. -/
inductive Covers : Nat → Nat → List Hunk → List Text → List Text → Prop
  | rest (i j : Nat) (lines : List Text) : Covers i j [] lines lines
  | hunk {i j : Nat} {h : Hunk} {hs : List Hunk} {old new : List Text} (gap : List Text)
      (hold : h.oldStart = i + gap.length) (hnew : h.newStart = j + gap.length)
      (hrest : Covers (h.oldStart + h.before.length) (h.newStart + h.after.length) hs old new) :
      Covers i j (h :: hs) (gap ++ (h.before ++ old)) (gap ++ (h.after ++ new))

/-- A hunk without a change has the same lines before and after. -/
theorem Hunk.before_eq_after {h : Hunk} (hsame : h.hasChange = false) : h.before = h.after := by
  rw [hasChange, List.any_eq_false] at hsame
  refine List.flatMap_congr fun piece hpiece => ?_
  cases piece with
  | same lines => rfl
  | change removed added => exact absurd rfl (hsame _ hpiece)

namespace Covers

variable {i j : Nat} {hs : List Hunk} {old new : List Text}

/-- Lines that stay can be put in front. -/
theorem prepend (gap : List Text) (h : Covers (i + gap.length) (j + gap.length) hs old new) :
    Covers i j hs (gap ++ old) (gap ++ new) := by
  cases h with
  | rest => exact .rest i j _
  | hunk gap' hold hnew hrest =>
    rw [← List.append_assoc, ← List.append_assoc gap]
    refine .hunk (gap ++ gap') ?_ ?_ hrest
    · rw [hold, List.length_append, Nat.add_assoc]
    · rw [hnew, List.length_append, Nat.add_assoc]

/-- Hunks without a change can be left out. -/
theorem filter (h : Covers i j hs old new) : Covers i j (hs.filter Hunk.hasChange) old new := by
  induction h with
  | rest i j lines => exact .rest i j lines
  | @hunk i j h hs old new gap hold hnew _ ih =>
    cases hchange : h.hasChange with
    | true =>
      rw [List.filter_cons_of_pos hchange]
      exact .hunk gap hold hnew ih
    | false =>
      rw [List.filter_cons_of_neg (by simp [hchange]), ← Hunk.before_eq_after hchange]
      rw [← Hunk.before_eq_after hchange, hold, hnew] at ih
      exact (ih.prepend h.before).prepend gap

theorem ne_nil (h : Covers i j hs old new) (hne : old ≠ new) : hs ≠ [] := by
  rintro rfl
  cases h
  exact hne rfl

theorem le_start (h : Covers i j hs old new) : ∀ k ∈ hs, i ≤ k.oldStart ∧ j ≤ k.newStart := by
  induction h with
  | rest => simp
  | @hunk i j h hs old new gap hold hnew _ ih =>
    have hfirst : i ≤ h.oldStart ∧ j ≤ h.newStart := by omega
    refine List.forall_mem_cons.mpr ⟨hfirst, fun k hk => ?_⟩
    have hlater := ih k hk
    omega

/-- **The hunks are in order and do not overlap**, neither in the old lines nor in the new. -/
theorem pairwise (h : Covers i j hs old new) :
    hs.Pairwise fun h k => h.oldStart + h.before.length ≤ k.oldStart ∧
      h.newStart + h.after.length ≤ k.newStart := by
  induction h with
  | rest => exact .nil
  | hunk gap hold hnew hrest ih => exact .cons hrest.le_start ih

/-- **The lines of a hunk stand where it says**, on either side. -/
theorem standsAt (h : Covers i j hs old new) :
    ∀ k ∈ hs, StandsAt k.before (k.oldStart - i) old ∧ StandsAt k.after (k.newStart - j) new := by
  induction h with
  | rest => simp
  | @hunk i j h hs old new gap hold hnew hrest ih =>
    refine List.forall_mem_cons.mpr ⟨⟨?_, ?_⟩, fun k hk => ?_⟩
    · exact ⟨gap, old, (List.append_assoc ..).symm, by omega⟩
    · exact ⟨gap, new, (List.append_assoc ..).symm, by omega⟩
    · -- a later hunk stands behind the gap and the lines of the first one
      obtain ⟨⟨before, after, rfl, hbefore⟩, ⟨before', after', rfl, hbefore'⟩⟩ := ih k hk
      obtain ⟨hle, hle'⟩ := hrest.le_start k hk
      refine ⟨⟨gap ++ (h.before ++ before), after, by simp, ?_⟩,
        ⟨gap ++ (h.after ++ before'), after', by simp, ?_⟩⟩
      · simp only [List.length_append]
        omega
      · simp only [List.length_append]
        omega

end Covers

/-! ## Grouping -/

/-- A hunk whose pieces are in reverse, the right way round. -/
def Hunk.turned (h : Hunk) : Hunk :=
  { h with pieces := h.pieces.reverse }

theorem Hunk.before_turned_cons (i j : Nat) (piece : Piece) (pieces : List Piece) :
    (turned ⟨i, j, piece :: pieces⟩).before = (turned ⟨i, j, pieces⟩).before ++ piece.before := by
  simp [turned, before]

theorem Hunk.after_turned_cons (i j : Nat) (piece : Piece) (pieces : List Piece) :
    (turned ⟨i, j, piece :: pieces⟩).after = (turned ⟨i, j, pieces⟩).after ++ piece.after := by
  simp [turned, after]

theorem Hunk.before_turned_same (i j : Nat) (lines : List Text) :
    (turned ⟨i, j, [.same lines]⟩).before = lines :=
  List.append_nil lines

theorem Hunk.after_turned_same (i j : Nat) (lines : List Text) :
    (turned ⟨i, j, [.same lines]⟩).after = lines :=
  List.append_nil lines

/-- The lines that are not among the last ones, and the last ones. -/
theorem take_append_lastLines (n : Nat) (lines : List Text) :
    lines.take (lines.length - (lastLines n lines).length) ++ lastLines n lines = lines := by
  have hlength : lines.length - (lastLines n lines).length = lines.length - n := by
    rw [lastLines, List.length_drop]
    omega
  rw [hlength, lastLines, List.take_append_drop]

/-- Many lines are a context, something in between, and another context. -/
theorem exists_between {lines : List Text} (h : 2 * contextLines < lines.length) :
    ∃ between, lines = lines.take contextLines ++ (between ++ lastLines contextLines lines) ∧
      between.length = lines.length - 2 * contextLines := by
  refine ⟨(lines.drop contextLines).take (lines.length - 2 * contextLines), ?_, ?_⟩
  · have hlast : lastLines contextLines lines
        = (lines.drop contextLines).drop (lines.length - 2 * contextLines) := by
      rw [lastLines, List.drop_drop]
      congr 1
      omega
    rw [hlast, List.take_append_drop, List.take_append_drop]
  · rw [List.length_take, List.length_drop]
    omega

/-- Where many lines stay, a hunk can end and the next one begin. -/
theorem Covers.cut {pieces : List Piece} {i j old new : Nat} {hs : List Hunk}
    {lines olds news : List Text} (hmany : 2 * contextLines < lines.length)
    (hold : old = i + (Hunk.turned ⟨i, j, pieces⟩).before.length)
    (hnew : new = j + (Hunk.turned ⟨i, j, pieces⟩).after.length)
    (h : Covers (old + lines.length - contextLines) (new + lines.length - contextLines) hs
      (lastLines contextLines lines ++ olds) (lastLines contextLines lines ++ news)) :
    Covers i j (Hunk.turned ⟨i, j, .same (lines.take contextLines) :: pieces⟩ :: hs)
      ((Hunk.turned ⟨i, j, pieces⟩).before ++ (lines ++ olds))
      ((Hunk.turned ⟨i, j, pieces⟩).after ++ (lines ++ news)) := by
  obtain ⟨between, hlines, hbetween⟩ := exists_between hmany
  have hfirst : (lines.take contextLines).length = contextLines :=
    List.length_take_of_le (by omega)
  have hrest : Covers
      (i + (Hunk.turned ⟨i, j, .same (lines.take contextLines) :: pieces⟩).before.length)
      (j + (Hunk.turned ⟨i, j, .same (lines.take contextLines) :: pieces⟩).after.length) hs
      (between ++ (lastLines contextLines lines ++ olds))
      (between ++ (lastLines contextLines lines ++ news)) := by
    refine Covers.prepend between ?_
    rw [Hunk.before_turned_cons, Hunk.after_turned_cons, List.length_append, List.length_append,
      Piece.before, Piece.after, hfirst, hbetween]
    convert h using 1 <;> omega
  have hhunk : Covers i j
      (Hunk.turned ⟨i, j, .same (lines.take contextLines) :: pieces⟩ :: hs) _ _ :=
    .hunk [] rfl rfl hrest
  rw [Hunk.before_turned_cons, Hunk.after_turned_cons] at hhunk
  have hsplit : ∀ more, lines ++ more
      = lines.take contextLines ++ (between ++ (lastLines contextLines lines ++ more)) := by
    intro more
    conv_lhs => rw [hlines]
    simp only [List.append_assoc]
  rw [hsplit olds, hsplit news]
  simpa only [Piece.before, Piece.after, List.nil_append, List.append_assoc] using hhunk

/-- **Grouping leaves nothing out**, whatever the current hunk is. -/
theorem covers_groupFrom (script : List Piece) (tail : List Text) (pieces : List Piece)
    (i j : Nat) {old new : Nat} (hold : old = i + (Hunk.turned ⟨i, j, pieces⟩).before.length)
    (hnew : new = j + (Hunk.turned ⟨i, j, pieces⟩).after.length) :
    Covers i j (groupFrom ⟨i, j, pieces⟩ old new script)
      ((Hunk.turned ⟨i, j, pieces⟩).before ++ (script.flatMap Piece.before ++ tail))
      ((Hunk.turned ⟨i, j, pieces⟩).after ++ (script.flatMap Piece.after ++ tail)) := by
  induction script generalizing pieces i j old new with
  | nil => exact .hunk [] rfl rfl (.rest _ _ tail)
  | cons piece rest ih =>
    -- a piece that does not end the hunk is added to it
    have hadded : Covers i j (groupFrom ⟨i, j, piece :: pieces⟩ (old + piece.before.length)
        (new + piece.after.length) rest)
        ((Hunk.turned ⟨i, j, pieces⟩).before ++ ((piece :: rest).flatMap Piece.before ++ tail))
        ((Hunk.turned ⟨i, j, pieces⟩).after ++ ((piece :: rest).flatMap Piece.after ++ tail)) := by
      have hold' : old + piece.before.length
          = i + (Hunk.turned ⟨i, j, piece :: pieces⟩).before.length := by
        rw [Hunk.before_turned_cons, List.length_append]
        omega
      have hnew' : new + piece.after.length
          = j + (Hunk.turned ⟨i, j, piece :: pieces⟩).after.length := by
        rw [Hunk.after_turned_cons, List.length_append]
        omega
      have hrest := ih (piece :: pieces) i j hold' hnew'
      rw [Hunk.before_turned_cons, Hunk.after_turned_cons] at hrest
      simpa only [List.flatMap_cons, List.append_assoc] using hrest
    cases piece with
    | change removed added => exact hadded
    | same lines =>
      simp only [groupFrom]
      split
      · rename_i hmany
        have hcontext : (lastLines contextLines lines).length = contextLines := by
          rw [lastLines, List.length_drop]
          omega
        have hrest := @ih [.same (lastLines contextLines lines)]
          (old + lines.length - contextLines) (new + lines.length - contextLines)
          (old + lines.length) (new + lines.length)
          (by rw [Hunk.before_turned_same, hcontext]; omega)
          (by rw [Hunk.after_turned_same, hcontext]; omega)
        rw [Hunk.before_turned_same, Hunk.after_turned_same] at hrest
        rw [List.flatMap_cons, List.flatMap_cons, List.append_assoc, List.append_assoc]
        exact Covers.cut hmany hold hnew hrest
      · exact hadded

/-! ## Shortening -/

/-- What is cut off at the end of a script stays. -/
theorem exists_trimEnd (script : List Piece) :
    ∃ tail, script.flatMap Piece.before = (trimEnd script).flatMap Piece.before ++ tail ∧
      script.flatMap Piece.after = (trimEnd script).flatMap Piece.after ++ tail := by
  fun_induction trimEnd script with
  | case1 => exact ⟨[], rfl, rfl⟩
  | case2 lines =>
    refine ⟨lines.drop contextLines, ?_, ?_⟩
    · simp [Piece.before]
    · simp [Piece.after]
  | case3 piece rest _ ih =>
    obtain ⟨tail, hbefore, hafter⟩ := ih
    refine ⟨tail, ?_, ?_⟩
    · rw [List.flatMap_cons, List.flatMap_cons, hbefore, List.append_assoc]
    · rw [List.flatMap_cons, List.flatMap_cons, hafter, List.append_assoc]

/-- The groups of a script whose end is shortened, from a place on. -/
theorem covers_groups (i : Nat) {script : List Piece} {old new : List Text}
    (h : IsScript script old new) :
    Covers i i (groupFrom ⟨i, i, []⟩ i i (trimEnd script)) old new := by
  obtain ⟨tail, hbefore, hafter⟩ := exists_trimEnd script
  have hgroups := covers_groupFrom (trimEnd script) tail [] i i rfl rfl
  rw [← hbefore, ← hafter, h.before, h.after] at hgroups
  exact hgroups

/-- **The hunks of a script cover it.** -/
theorem covers_hunks {script : List Piece} {old new : List Text} (h : IsScript script old new) :
    Covers 0 0 (hunks script) old new := by
  rcases script with _ | ⟨⟨lines⟩ | ⟨removed, added⟩, rest⟩
  · exact (covers_groups 0 h).filter
  · -- the lines that are not shown at the beginning are a gap
    obtain ⟨rfl, rfl⟩ := h
    have hscript : IsScript (.same (lastLines contextLines lines) :: rest)
        (lastLines contextLines lines ++ rest.flatMap Piece.before)
        (lastLines contextLines lines ++ rest.flatMap Piece.after) := ⟨rfl, rfl⟩
    have hshown := covers_groups (lines.length - (lastLines contextLines lines).length) hscript
    have hall : Covers 0 0 _ _ _ := Covers.prepend
      (lines.take (lines.length - (lastLines contextLines lines).length)) (by
        rw [List.length_take_of_le (Nat.sub_le _ _), Nat.zero_add]
        exact hshown)
    rw [← List.append_assoc, ← List.append_assoc, take_append_lastLines] at hall
    exact hall.filter
  · exact (covers_groups 0 h).filter

end Diff
end StateForge
