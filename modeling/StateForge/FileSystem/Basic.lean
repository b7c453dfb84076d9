import StateForge.FileSystem.Path

/-!
# File systems

A file system is a finite map from places to files, directories and symbolic links. A place is the
list of names from the root to it, so it names one thing whatever links lead there.

## What is here

* `FileSystem.get?`, `FileSystem.set`, `FileSystem.erase`: the map.
* `FileSystem.resolve`: where a path leads, following links, or why it leads nowhere.
* `FileSystem.changes`: what differs between two file systems.
-/

set_option autoImplicit false

namespace StateForge

/-- A place in a file system: the names from the root on. -/
abbrev Location := List Text

/-- What can be at a place. -/
inductive Entry where
  | file (content : Text)
  | directory
  /-- A symbolic link with its target as written. -/
  | link (target : Text)
deriving DecidableEq

/-- A file system. The root is always a directory and is not listed. -/
structure FileSystem where
  entries : List (Location × Entry)
  /-- The directory that relative paths start from. -/
  current : Location

/-- Why the system refuses an operation. -/
inductive SystemError where
  | noEntry
  | notDirectory
  | isDirectory
  | alreadyExists
  | nameTooLong
  | invalidArgument
  | tooManyLinks
deriving DecidableEq

namespace SystemError

/-- The wording of an error. -/
def message : SystemError → Text
  | noEntry => "no such file or directory"
  | notDirectory => "not a directory"
  | isDirectory => "is a directory"
  | alreadyExists => "file exists"
  | nameTooLong => "file name too long"
  | invalidArgument => "invalid argument"
  | tooManyLinks => "too many levels of symbolic links"

end SystemError

/-- A refused operation on a path. -/
structure PathError where
  operation : Text
  path : Text
  cause : SystemError
deriving DecidableEq

namespace PathError

/-- The wording of an error. -/
def message (e : PathError) : Text :=
  e.operation ++ " " ++ e.path ++ ": " ++ e.cause.message

end PathError

/-- Where a path leads. -/
inductive Spot where
  /-- To something that exists. -/
  | found (location : Location) (entry : Entry)
  /-- To a name that does not exist, in a directory that does. -/
  | missing (parent : Location) (name : Text)
deriving DecidableEq

namespace FileSystem

/-! ## The map -/

/-- What is at a place. -/
def get? (fs : FileSystem) (l : Location) : Option Entry :=
  if l = [] then some .directory else fs.entries.lookup l

/-- Puts an entry at a place, in a list of entries. -/
def setIn (l : Location) (e : Entry) : List (Location × Entry) → List (Location × Entry)
  | [] => [(l, e)]
  | (k, d) :: rest => if k = l then (l, e) :: rest else (k, d) :: setIn l e rest

/-- Puts an entry at a place. -/
def set (fs : FileSystem) (l : Location) (e : Entry) : FileSystem :=
  { fs with entries := setIn l e fs.entries }

/-- Takes away what is at a place and below it. -/
def erase (fs : FileSystem) (l : Location) : FileSystem :=
  { fs with entries := fs.entries.filter fun e => !l.isPrefixOf e.1 }

/-! ## Paths -/

/-- The longest name that the system accepts. -/
def maxName : Nat := 255

/-- One more than the length of the longest path that the system accepts. -/
def maxPath : Nat := 4096

/-- The number of links that the system follows on the way to one file. -/
def maxLinks : Nat := 40

/-- The names that a path leads over. A slash at the end stands for the directory itself, so it only
leads somewhere if a directory is there. -/
def steps (path : Text) : List Text :=
  Path.names path ++ if path.getLast? = some Path.slash then [Path.here] else []

/-- How far a path leads without following a link. -/
inductive Walk where
  | refused (cause : SystemError)
  | arrived (spot : Spot)
  /-- A link was met: the rest of the way starts in `base`. -/
  | redirected (base : Location) (steps : List Text)

/-- Walks from a directory over names, up to the next link. The last name is only followed if it is
a link when `followLast` is set. -/
def walk (fs : FileSystem) (followLast : Bool) : Location → List Text → Walk
  | dir, [] => .arrived (.found dir .directory)
  | dir, name :: rest =>
    if name = Path.here then walk fs followLast dir rest
    else if name = Path.up then walk fs followLast dir.dropLast rest
    else if name.length > maxName then .refused .nameTooLong
    else
      match fs.get? (dir ++ [name]) with
      | none => if rest = [] then .arrived (.missing dir name) else .refused .noEntry
      | some .directory => walk fs followLast (dir ++ [name]) rest
      | some (.file content) =>
        if rest = [] then .arrived (.found (dir ++ [name]) (.file content))
        else .refused .notDirectory
      | some (.link target) =>
        if rest = [] ∧ !followLast then .arrived (.found (dir ++ [name]) (.link target))
        else .redirected (if Path.isAbsolute target then [] else dir) (steps target ++ rest)

/-- Walks over names and follows at most `links` links. -/
def walkLinks (fs : FileSystem) (followLast : Bool) :
    Nat → Location → List Text → Except SystemError Spot
  | links, base, names =>
    match fs.walk followLast base names with
    | .refused cause => .error cause
    | .arrived spot => .ok spot
    | .redirected base' names' =>
      match links with
      | 0 => .error .tooManyLinks
      | links + 1 => walkLinks fs followLast links base' names'

/-- The places that a path leads over as written, in a directory, without looking at what is there. -/
def places (dir : Location) (path : Text) : List Location :=
  let enter (place : Location) (name : Text) : Location :=
    if name = Path.here then place else if name = Path.up then place.dropLast else place ++ [name]
  let rec visit (place : Location) : List Text → List Location
    | [] => []
    | name :: rest => enter place name :: visit (enter place name) rest
  visit (if Path.isAbsolute path then [] else dir) (Path.names path)

/-- Where a path leads. -/
def resolve (fs : FileSystem) (followLast : Bool) (path : Text) : Except SystemError Spot :=
  if (0 : UInt8) ∈ path then .error .invalidArgument
  else if path = [] then .error .noEntry
  else if path.length ≥ maxPath then .error .nameTooLong
  else fs.walkLinks followLast maxLinks (if Path.isAbsolute path then [] else fs.current) (steps path)

/-! ## Comparing file systems -/

/-- What happened at a place. -/
inductive Change where
  /-- There is a file, with new content. -/
  | file (content : Text)
  /-- There is a directory that was not there. -/
  | directory
  /-- There is nothing any more. -/
  | removed

/-- The change from one entry to another; links do not count. -/
def change? : Option Entry → Option Entry → Option Change
  | some (.file old), some (.file new) => if old == new then none else some (.file new)
  | _, some (.file new) => some (.file new)
  | some .directory, some .directory => none
  | _, some .directory => some .directory
  | some (.file _), _ => some .removed
  | some .directory, _ => some .removed
  | _, _ => none

/-- What differs below a place, by the names from that place on. -/
def changes (before after : FileSystem) (under : Location) : List (Location × Change) :=
  let places := (before.entries ++ after.entries).map Prod.fst
  let below := places.eraseDups.filter fun l => under.isPrefixOf l && under.length < l.length
  below.filterMap fun l =>
    (change? (before.get? l) (after.get? l)).map fun c => (l.drop under.length, c)

end FileSystem

end StateForge
