import StateForge.Diff.Script

/-!
# Unified diffs

A diff shows the changes of an edit script in hunks, each with a few lines of context around it and
with the ranges of lines that it covers in the old and in the new file.
-/

set_option autoImplicit false

namespace StateForge
namespace Diff

/-- A part of a diff: pieces of a script and the number of lines before them. -/
structure Hunk where
  oldStart : Nat
  newStart : Nat
  pieces : List Piece
deriving DecidableEq

namespace Hunk

/-- The old lines that a hunk covers. -/
def before (h : Hunk) : List Text :=
  h.pieces.flatMap Piece.before

/-- The new lines that a hunk covers. -/
def after (h : Hunk) : List Text :=
  h.pieces.flatMap Piece.after

/-- Does the hunk show a change? -/
def hasChange (h : Hunk) : Bool :=
  h.pieces.any fun p => match p with
    | .same _ => false
    | .change .. => true

end Hunk

/-- The number of lines that are shown around a change. -/
def contextLines : Nat := 2

/-- The last `n` lines. -/
def lastLines (n : Nat) (lines : List Text) : List Text :=
  lines.drop (lines.length - n)

/-- Groups the pieces of a script into hunks. `hunk` is the current one, its pieces in reverse, and
`old` and `new` are the numbers of lines before the next piece. Lines that stay end a hunk when there
are more of them than two contexts. -/
def groupFrom (hunk : Hunk) (old new : Nat) : List Piece → List Hunk
  | [] => [{ hunk with pieces := hunk.pieces.reverse }]
  | piece :: rest =>
    let old' := old + piece.before.length
    let new' := new + piece.after.length
    match piece with
    | .same lines =>
      if 2 * contextLines < lines.length then
        { hunk with pieces := (.same (lines.take contextLines) :: hunk.pieces).reverse } ::
          groupFrom ⟨old' - contextLines, new' - contextLines, [.same (lastLines contextLines lines)]⟩
            old' new' rest
      else groupFrom { hunk with pieces := piece :: hunk.pieces } old' new' rest
    | .change .. => groupFrom { hunk with pieces := piece :: hunk.pieces } old' new' rest

/-- Shortens the lines that stay at the end of a script to a context. -/
def trimEnd : List Piece → List Piece
  | [] => []
  | [.same lines] => [.same (lines.take contextLines)]
  | piece :: rest => piece :: trimEnd rest

/-- The hunks of a script. The lines that stay at its beginning and at its end are shortened to a
context. -/
def hunks (script : List Piece) : List Hunk :=
  let groups :=
    match script with
    | .same lines :: rest =>
      let shown := lastLines contextLines lines
      let start := lines.length - shown.length
      groupFrom ⟨start, start, []⟩ start start (trimEnd (.same shown :: rest))
    | script => groupFrom ⟨0, 0, []⟩ 0 0 (trimEnd script)
  groups.filter Hunk.hasChange

/-- A range of lines: a single line is its number, and an empty range lies after a line. -/
def range (start length : Nat) : Text :=
  if length = 1 then Text.decimal (start + 1)
  else if length = 0 then Text.decimal start ++ ",0"
  else Text.decimal (start + 1) ++ "," ++ Text.decimal length

/-- Lines with a mark in front of each. -/
def marked (mark : Text) (lines : List Text) : List Text :=
  lines.map fun line => mark ++ line

/-- The lines that show a piece. -/
def Piece.show : Piece → List Text
  | same lines => marked " " lines
  | change removed added => marked "-" removed ++ marked "+" added

/-- The lines that show a hunk. -/
def Hunk.show (h : Hunk) : List Text :=
  ("@@ -" ++ range h.oldStart h.before.length ++ " +" ++ range h.newStart h.after.length ++ " @@") ::
    h.pieces.flatMap Piece.show

/-- The lines of a diff between two files, which are called `oldName` and `newName`. There are none
if the files are equal. -/
def unified (oldName newName : Text) (old new : List Text) : List Text :=
  match hunks (script old new) with
  | [] => []
  | hs => ("--- " ++ oldName) :: ("+++ " ++ newName) :: hs.flatMap Hunk.show

end Diff
end StateForge
