import Mathlib.Data.List.Basic
import StateForge.Diff.Script

/-!
# What an edit script says

An edit script is found by a heuristic, with a table of the lengths of common runs and a list of
lines that are too common to be looked for. None of that matters to whether the script is right.
This file shows that it is, for any two lists of lines: what the pieces have before them is the old
lines, and what they have after them is the new lines (`isScript_script`).

* `StandsAt` says that a number of lines stand at a place in a list.
* `Run.Shared` says that a run is what it should be, the same lines at a place of the old lines and
  at a place of the new. Every length in the table is that of a shared run (`IsRow`), so the longest
  one is shared (`shared_longestRun`), whichever lines are left out.
* `IsScript` is the fact about scripts. It goes from the parts beside a shared run to the whole.
-/

set_option autoImplicit false

namespace StateForge
namespace Diff

/-! ## Places in a list -/

/-- The lines stand in `lines` from the place `start` on. -/
def StandsAt (run : List Text) (start : Nat) (lines : List Text) : Prop :=
  ∃ before after, lines = before ++ run ++ after ∧ before.length = start

namespace StandsAt

variable {run lead lines : List Text} {start : Nat}

theorem nil (h : start ≤ lines.length) : StandsAt [] start lines :=
  ⟨lines.take start, lines.drop start, by simp, List.length_take_of_le h⟩

theorem subset (h : StandsAt run start lines) : run ⊆ lines := by
  obtain ⟨before, after, rfl, -⟩ := h
  intro line hline
  simp [hline]

/-- A list is what stands before the lines, the lines, and what stands after them. -/
theorem take_append_drop (h : StandsAt run start lines) :
    lines.take start ++ (run ++ lines.drop (start + run.length)) = lines := by
  obtain ⟨before, after, rfl, rfl⟩ := h
  simp [List.drop_append]

theorem take_drop (h : StandsAt run start lines) : (lines.drop start).take run.length = run := by
  obtain ⟨before, after, rfl, rfl⟩ := h
  simp

/-- Lines that follow can be added. -/
theorem append_right (h : StandsAt run start lines)
    (hlead : lead <+: lines.drop (start + run.length)) : StandsAt (run ++ lead) start lines := by
  obtain ⟨before, after, rfl, rfl⟩ := h
  rw [← List.length_append, List.drop_left] at hlead
  obtain ⟨after, rfl⟩ := hlead
  exact ⟨before, after, by simp, rfl⟩

/-- Lines that stand before can be added. -/
theorem append_left (h : StandsAt run start lines) (hlead : lead <:+ lines.take start) :
    StandsAt (lead ++ run) (start - lead.length) lines := by
  obtain ⟨before, after, rfl, rfl⟩ := h
  rw [List.append_assoc, List.take_left] at hlead
  obtain ⟨before, rfl⟩ := hlead
  exact ⟨before, after, by simp, by simp⟩

theorem concat (h : StandsAt run start lines) {line : Text}
    (hline : lines[start + run.length]? = some line) : StandsAt (run ++ [line]) start lines := by
  refine h.append_right ?_
  obtain ⟨hlt, rfl⟩ := List.getElem?_eq_some_iff.mp hline
  rw [List.drop_eq_getElem_cons hlt]
  exact List.prefix_append [_] _

end StandsAt

/-! ## The longest common run -/

/-- The run is the same lines at both of its places. -/
def Run.Shared (r : Run) (old new : List Text) : Prop :=
  ∃ run : List Text, run.length = r.size ∧ StandsAt run r.old old ∧ StandsAt run r.new new

/-- A shared run of a certain length ends before line `i` of the old lines and before line `j` of
the new. -/
def RunEnds (old new : List Text) (i j length : Nat) : Prop :=
  ∃ r : Run, r.Shared old new ∧ r.size = length ∧ r.old + length = i ∧ r.new + length = j

/-- The lengths are those of shared runs that end before line `i` of the old lines. The first of
them ends before line `j` of the new, and each of the others one line after the last. -/
def IsRow (old new : List Text) (i : Nat) : Nat → List Nat → Prop
  | _, [] => True
  | j, length :: lengths => RunEnds old new i j length ∧ IsRow old new i (j + 1) lengths

/-- The first of the lines from a place on. -/
theorem getElem?_of_drop {lines rest : List Text} {i : Nat} {line : Text}
    (h : lines.drop i = line :: rest) : lines[i]? = some line ∧ lines.drop (i + 1) = rest := by
  constructor
  · rw [← List.head?_drop, h, List.head?_cons]
  · rw [← List.drop_drop, h, List.drop_one, List.tail_cons]

section Search

variable {old new : List Text} {i j : Nat}

theorem runEnds_zero (hi : i ≤ old.length) (hj : j ≤ new.length) : RunEnds old new i j 0 :=
  ⟨⟨i, j, 0⟩, ⟨[], rfl, .nil hi, .nil hj⟩, rfl, rfl, rfl⟩

theorem RunEnds.succ {length : Nat} {line : Text} (h : RunEnds old new i j length)
    (hold : old[i]? = some line) (hnew : new[j]? = some line) :
    RunEnds old new (i + 1) (j + 1) (length + 1) := by
  obtain ⟨r, ⟨run, hsize, hatOld, hatNew⟩, rfl, rfl, rfl⟩ := h
  rw [← hsize] at hold hnew
  refine ⟨⟨r.old, r.new, r.size + 1⟩, ⟨run ++ [line], ?_, hatOld.concat hold, hatNew.concat hnew⟩,
    rfl, rfl, rfl⟩
  rw [List.length_append, hsize]
  rfl

theorem isRow_replicate {n : Nat} (h : j + n ≤ new.length + 1) :
    IsRow old new 0 j (List.replicate n 0) := by
  induction n generalizing j with
  | zero => trivial
  | succ n ih => exact ⟨runEnds_zero (Nat.zero_le _) (by omega), ih (by omega)⟩

/-- **One line of the old lines further**, the lengths are again those of shared runs. -/
theorem isRow_runLengths {usable : Text → Bool} {line : Text} {rest : List Text} {diagonal : Nat}
    {lengths : List Nat} (hline : old[i]? = some line) (hrest : new.drop j = rest)
    (hdiagonal : RunEnds old new i j diagonal) (hlengths : IsRow old new i (j + 1) lengths) :
    IsRow old new (i + 1) (j + 1) (runLengths usable line diagonal rest lengths) := by
  induction rest generalizing j diagonal lengths with
  | nil => simp [runLengths, IsRow]
  | cons l rest ih =>
    cases lengths with
    | nil => simp [runLengths, IsRow]
    | cons above lengths =>
      obtain ⟨habove, hlengths⟩ := hlengths
      obtain ⟨hl, hrest⟩ := getElem?_of_drop hrest
      rw [runLengths]
      refine ⟨?_, ih hrest habove hlengths⟩
      split
      · rename_i hsame
        rw [Bool.and_eq_true, beq_iff_eq] at hsame
        exact hdiagonal.succ hline (hsame.1 ▸ hl)
      · obtain ⟨hi, -⟩ := List.getElem?_eq_some_iff.mp hline
        obtain ⟨hj, -⟩ := List.getElem?_eq_some_iff.mp hl
        exact runEnds_zero hi hj

theorem shared_longestInRow {best : Run} {lengths : List Nat} (hbest : best.Shared old new)
    (hlengths : IsRow old new (i + 1) (j + 1) lengths) :
    (longestInRow i best j lengths).Shared old new := by
  induction lengths generalizing best j with
  | nil => exact hbest
  | cons length lengths ih =>
    obtain ⟨⟨r, hr, rfl, hi, hj⟩, hlengths⟩ := hlengths
    rw [longestInRow]
    refine ih ?_ hlengths
    split
    · have hplace : (⟨i + 1 - r.size, j + 1 - r.size, r.size⟩ : Run) = r := by
        rw [← hi, ← hj, Nat.add_sub_cancel, Nat.add_sub_cancel]
      exact hplace ▸ hr
    · exact hbest

theorem shared_longestUsable {usable : Text → Bool} {best : Run} {lengths : List Nat}
    {rest : List Text} (hbest : best.Shared old new) (hrest : old.drop i = rest)
    (hlengths : IsRow old new i 1 lengths) :
    (longestUsable usable new best i lengths rest).Shared old new := by
  induction rest generalizing best i lengths with
  | nil => exact hbest
  | cons line rest ih =>
    obtain ⟨hline, hrest⟩ := getElem?_of_drop hrest
    obtain ⟨hi, -⟩ := List.getElem?_eq_some_iff.mp hline
    have hrow : IsRow old new (i + 1) 1 (runLengths usable line 0 new lengths) :=
      isRow_runLengths hline rfl (runEnds_zero (Nat.le_of_lt hi) (Nat.zero_le _)) hlengths
    rw [longestUsable]
    exact ih (shared_longestInRow hbest hrow) hrest hrow

end Search

/-- The lines that two lists have in common at their beginning. -/
theorem exists_commonLead (as bs : List Text) :
    ∃ lead, lead.length = commonLead as bs ∧ lead <+: as ∧ lead <+: bs := by
  induction as generalizing bs with
  | nil => exact ⟨[], by simp [commonLead], List.nil_prefix, List.nil_prefix⟩
  | cons a as ih =>
    cases bs with
    | nil => exact ⟨[], rfl, List.nil_prefix, List.nil_prefix⟩
    | cons b bs =>
      rw [commonLead]
      split
      · rename_i hsame
        obtain rfl := eq_of_beq hsame
        obtain ⟨lead, hlength, has, hbs⟩ := ih bs
        exact ⟨a :: lead, by rw [List.length_cons, hlength], (List.prefix_cons_inj a).mpr has,
          (List.prefix_cons_inj a).mpr hbs⟩
      · exact ⟨[], rfl, List.nil_prefix, List.nil_prefix⟩

/-- A shared run stays shared when equal lines beside it are added. -/
theorem Run.Shared.extend {r : Run} {old new : List Text} (h : r.Shared old new) :
    (r.extend old new).Shared old new := by
  obtain ⟨run, hsize, hold, hnew⟩ := h
  obtain ⟨left, hleft, hleftOld, hleftNew⟩ :=
    exists_commonLead (old.take r.old).reverse (new.take r.new).reverse
  obtain ⟨right, hright, hrightOld, hrightNew⟩ :=
    exists_commonLead (old.drop (r.old + r.size)) (new.drop (r.new + r.size))
  rw [← List.reverse_suffix, List.reverse_reverse] at hleftOld hleftNew
  rw [← hsize] at hrightOld hrightNew
  refine ⟨left.reverse ++ (run ++ right), ?_, ?_, ?_⟩
  · simp only [Run.extend, List.length_append, List.length_reverse, hleft, hright, hsize,
      Nat.add_assoc]
  · simp only [Run.extend, ← hleft]
    rw [← List.length_reverse]
    exact (hold.append_right hrightOld).append_left hleftOld
  · simp only [Run.extend, ← hleft]
    rw [← List.length_reverse]
    exact (hnew.append_right hrightNew).append_left hleftNew

/-- **The run that is found is shared**, whichever lines are looked for. -/
theorem shared_longestRun (usable : Text → Bool) (old new : List Text) :
    (longestRun usable old new).Shared old new := by
  have hempty : Run.Shared ⟨0, 0, 0⟩ old new :=
    ⟨[], rfl, .nil (Nat.zero_le _), .nil (Nat.zero_le _)⟩
  exact (shared_longestUsable hempty rfl (isRow_replicate (by omega))).extend

/-! ## The script -/

/-- The pieces have the old lines before them and the new lines after them. -/
structure IsScript (script : List Piece) (old new : List Text) : Prop where
  before : script.flatMap Piece.before = old
  after : script.flatMap Piece.after = new

theorem IsScript.append {script script' : List Piece} {old new old' new' : List Text}
    (h : IsScript script old new) (h' : IsScript script' old' new') :
    IsScript (script ++ script') (old ++ old') (new ++ new') :=
  ⟨by rw [List.flatMap_append, h.before, h'.before],
    by rw [List.flatMap_append, h.after, h'.after]⟩

theorem isScript_same (lines : List Text) : IsScript [.same lines] lines lines :=
  ⟨List.append_nil lines, List.append_nil lines⟩

theorem isScript_changed (removed added : List Text) :
    IsScript (changed removed added) removed added := by
  rw [changed]
  split
  · rename_i hnone
    obtain ⟨rfl, rfl⟩ := hnone
    exact ⟨rfl, rfl⟩
  · exact ⟨List.append_nil removed, List.append_nil added⟩

/-- However far the search goes, the pieces are right. -/
theorem isScript_pieces (usable : Text → Bool) (fuel : Nat) (old new : List Text) :
    IsScript (pieces usable fuel old new) old new := by
  induction fuel generalizing old new with
  | zero => exact isScript_changed old new
  | succ fuel ih =>
    simp only [pieces]
    split
    · exact isScript_changed old new
    · obtain ⟨run, hsize, hold, hnew⟩ := shared_longestRun usable old new
      rw [← hsize, hold.take_drop]
      have hparts := (ih (old.take (longestRun usable old new).old)
          (new.take (longestRun usable old new).new)).append
        ((isScript_same run).append
          (ih (old.drop ((longestRun usable old new).old + run.length))
            (new.drop ((longestRun usable old new).new + run.length))))
      rw [hold.take_append_drop, hnew.take_append_drop] at hparts
      exact hparts

/-- Joining pieces that stay does not change the lines on either side. -/
theorem flatMap_joinSame {side : Piece → List Text} (hside : ∀ lines, side (.same lines) = lines)
    (script : List Piece) : (joinSame script).flatMap side = script.flatMap side := by
  induction script with
  | nil => rfl
  | cons piece rest ih =>
    cases piece with
    | change removed added => rw [joinSame, List.flatMap_cons, List.flatMap_cons, ih]; simp
    | same lines =>
      rw [List.flatMap_cons, ← ih, joinSame]
      split
      · rename_i more rest' hjoined
        rw [hjoined, List.flatMap_cons, List.flatMap_cons, hside, hside, hside, List.append_assoc]
      · rw [List.flatMap_cons]

/-- **The script leads from the old lines to the new.** -/
theorem isScript_script (old new : List Text) : IsScript (script old new) old new :=
  have h := isScript_pieces _ (old.length + new.length) old new
  ⟨(flatMap_joinSame (fun _ => rfl) _).trans h.before,
    (flatMap_joinSame (fun _ => rfl) _).trans h.after⟩

end Diff
end StateForge
