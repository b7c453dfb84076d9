import StateForge.Text.Basic

/-!
# Paths as texts

A path is a text of names that are divided by slashes. Here a path is only a text: nothing looks at
the files that it leads to.
-/

set_option autoImplicit false

namespace StateForge
namespace Path

/-- The byte between the names of a path. -/
def slash : UInt8 := 0x2f

/-- The name of the directory itself. -/
def here : Text := "."

/-- The name of the directory above. -/
def up : Text := ".."

/-- Does the path start at the root? -/
def isAbsolute (p : Text) : Bool :=
  p.head? == some slash

/-- The names of a path in order, without the empty ones. -/
def names (p : Text) : List Text :=
  (Text.splitOn slash p).filter (· != [])

/-- One more name after a path that is given by its names, last first. A name is undone by the one
for the directory above; at the root there is nothing to undo. -/
def push (rooted : Bool) (stack : List Text) (name : Text) : List Text :=
  if name = here then stack
  else if name = up then
    match stack with
    | [] => if rooted then [] else [up]
    | top :: rest => if top = up then up :: stack else rest
  else name :: stack

/-- The shortest path that means the same, as far as the text shows. -/
def clean (p : Text) : Text :=
  let rooted := isAbsolute p
  let body := [slash].intercalate ((names p).foldl (push rooted) []).reverse
  if rooted then slash :: body else if body = [] then here else body

/-- The path of a name in a directory, cleaned; empty parts do not count. -/
def join (dir name : Text) : Text :=
  if dir ≠ [] then clean (dir ++ slash :: name)
  else if name ≠ [] then clean name
  else []

/-- The cleaned path from the root, for a path that is meant from the directory `current`. -/
def absolute (current p : Text) : Text :=
  if isAbsolute p then clean p else join current p

/-- The part of the last name from its last dot on; empty if it has none. -/
def extension (p : Text) : Text :=
  let name := p.reverse.takeWhile (· != slash)
  let tail := name.takeWhile (· != 0x2e)
  if tail.length = name.length then [] else 0x2e :: tail.reverse

end Path
end StateForge
