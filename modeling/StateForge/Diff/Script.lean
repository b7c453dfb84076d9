import StateForge.Text.Basic

/-!
# Edit scripts

An edit script turns one list of lines into another. It is a list of pieces: lines that stay, and
lines that are replaced by others. The script is found by taking the longest run of lines that the
two lists share, and going on in the same way to the left and to the right of it.

A run is looked for among the lines that are not too common, and then extended by equal lines of any
kind. Of several longest runs the one that comes first in the old lines is taken, and of these the
one that comes first in the new lines.
-/

set_option autoImplicit false

namespace StateForge
namespace Diff

/-- A part of an edit script. -/
inductive Piece where
  /-- Lines that stay. -/
  | same (lines : List Text)
  /-- Lines that are replaced. -/
  | change (removed added : List Text)
deriving DecidableEq

namespace Piece

/-- The old lines of a piece. -/
def before : Piece → List Text
  | same lines => lines
  | change removed _ => removed

/-- The new lines of a piece. -/
def after : Piece → List Text
  | same lines => lines
  | change _ added => added

end Piece

/-! ## The longest common run -/

/-- A run of `size` equal lines, from `old` on in the old lines and from `new` on in the new. -/
structure Run where
  old : Nat
  new : Nat
  size : Nat

/-- The lengths of the runs that end with `line` and with each of the new lines. `lengths` are those
of the runs that end one line earlier, and `diagonal` the length of the run before the first of the
new lines. -/
def runLengths (usable : Text → Bool) (line : Text) : Nat → List Text → List Nat → List Nat
  | diagonal, l :: rest, above :: lengths =>
    (if l == line && usable l then diagonal + 1 else 0) :: runLengths usable line above rest lengths
  | _, _, _ => []

/-- The longer of `best` and the longest run that ends in the row at `old`; `new` is the index of the
first length. -/
def longestInRow (old : Nat) : Run → Nat → List Nat → Run
  | best, _, [] => best
  | best, new, length :: rest =>
    longestInRow old
      (if best.size < length then ⟨old + 1 - length, new + 1 - length, length⟩ else best) (new + 1)
      rest

/-- The longest run of usable lines; `index` is the place of the first of the old lines. -/
def longestUsable (usable : Text → Bool) (new : List Text) :
    Run → Nat → List Nat → List Text → Run
  | best, _, _, [] => best
  | best, index, lengths, line :: rest =>
    let row := runLengths usable line 0 new lengths
    longestUsable usable new (longestInRow index best 0 row) (index + 1) row rest

/-- The number of equal lines at the beginning of two lists. -/
def commonLead : List Text → List Text → Nat
  | a :: as, b :: bs => if a == b then commonLead as bs + 1 else 0
  | _, _ => 0

/-- The run, extended on both sides by equal lines. -/
def Run.extend (r : Run) (old new : List Text) : Run :=
  let left := commonLead (old.take r.old).reverse (new.take r.new).reverse
  let right := commonLead (old.drop (r.old + r.size)) (new.drop (r.new + r.size))
  ⟨r.old - left, r.new - left, left + r.size + right⟩

/-- The longest common run of two lists of lines. -/
def longestRun (usable : Text → Bool) (old new : List Text) : Run :=
  (longestUsable usable new ⟨0, 0, 0⟩ 0 (List.replicate new.length 0) old).extend old new

/-! ## The script -/

/-- A piece in which everything changes, if there is anything. -/
def changed (removed added : List Text) : List Piece :=
  if removed = [] ∧ added = [] then [] else [.change removed added]

/-- The pieces between two lists of lines; neighbouring pieces may both stay. -/
def pieces (usable : Text → Bool) : Nat → List Text → List Text → List Piece
  | 0, old, new => changed old new
  | fuel + 1, old, new =>
    let run := longestRun usable old new
    if run.size = 0 then changed old new
    else
      pieces usable fuel (old.take run.old) (new.take run.new) ++
        .same ((old.drop run.old).take run.size) ::
          pieces usable fuel (old.drop (run.old + run.size)) (new.drop (run.new + run.size))

/-- Joins neighbouring pieces that stay. -/
def joinSame : List Piece → List Piece
  | .same lines :: rest =>
    match joinSame rest with
    | .same more :: rest' => .same (lines ++ more) :: rest'
    | rest' => .same lines :: rest'
  | piece :: rest => piece :: joinSame rest
  | [] => []

/-- From this number of new lines on, lines that are too common are not looked for. -/
def popularityThreshold : Nat := 200

/-- Is a line rare enough among the new lines to be looked for? In a list of at least 200 lines, one
that makes up more than one percent of them, and one more, is not. -/
def isUsable (new : List Text) (line : Text) : Bool :=
  new.length < popularityThreshold || new.count line ≤ new.length / 100 + 1

/-- An edit script from the old lines to the new. -/
def script (old new : List Text) : List Piece :=
  let popular := new.eraseDups.filter fun line => !isUsable new line
  joinSame (pieces (fun line => !popular.contains line) (old.length + new.length) old new)

end Diff
end StateForge
