import StateForge.FileSystem.Basic

/-!
# Reading and writing files

The operations that a program asks of the system, as functions on file systems. Each one either
gives its result or says which operation on which path was refused, and why.
-/

set_option autoImplicit false

namespace StateForge
namespace FileSystem

/-- What opening a path for reading gives. -/
inductive Opened where
  | file (content : Text)
  /-- Directories can be opened, but not read. -/
  | directory

/-- Opens a path for reading. -/
def openFile (fs : FileSystem) (path : Text) : Except PathError Opened :=
  match fs.resolve true path with
  | .error cause => .error ⟨"open", path, cause⟩
  | .ok (.found _ (.file content)) => .ok (.file content)
  | .ok (.found _ .directory) => .ok .directory
  | .ok (.found _ (.link _)) => .error ⟨"open", path, .tooManyLinks⟩
  | .ok (.missing ..) => .error ⟨"open", path, .noEntry⟩

/-- Reads what was opened. -/
def Opened.read (path : Text) : Opened → Except PathError Text
  | .file content => .ok content
  | .directory => .error ⟨"read", path, .isDirectory⟩

/-- Looks whether a path leads to something. -/
def stat (fs : FileSystem) (path : Text) : Except PathError Entry :=
  match fs.resolve true path with
  | .error cause => .error ⟨"stat", path, cause⟩
  | .ok (.found _ entry) => .ok entry
  | .ok (.missing ..) => .error ⟨"stat", path, .noEntry⟩

/-- Gives a file its content; the file is created if it is not there. -/
def writeFile (fs : FileSystem) (path content : Text) : Except PathError FileSystem :=
  match fs.resolve true path with
  | .error cause => .error ⟨"open", path, cause⟩
  | .ok (.found l (.file _)) => .ok (fs.set l (.file content))
  | .ok (.found _ .directory) => .error ⟨"open", path, .isDirectory⟩
  | .ok (.found _ (.link _)) => .error ⟨"open", path, .tooManyLinks⟩
  | .ok (.missing parent name) => .ok (fs.set (parent ++ [name]) (.file content))

/-- Makes one directory. Slashes at the end of the path do not count, unless they make it too
long. -/
def makeDirectory (fs : FileSystem) (path : Text) : Except PathError FileSystem :=
  let bare := (path.reverse.dropWhile (· == Path.slash)).reverse
  match fs.resolve false (if bare = [] ∨ path.length ≥ maxPath then path else bare) with
  | .error cause => .error ⟨"mkdir", path, cause⟩
  | .ok (.found ..) => .error ⟨"mkdir", path, .alreadyExists⟩
  | .ok (.missing parent name) => .ok (fs.set (parent ++ [name]) .directory)

/-- Is a directory at the end of the path, without following a link there? -/
def isDirectory (fs : FileSystem) (path : Text) : Bool :=
  match fs.resolve false path with
  | .ok (.found _ .directory) => true
  | _ => false

/-- The part of a path before its last name, with the slash. -/
def parentPath (path : Text) : Text :=
  ((path.reverse.dropWhile (· == Path.slash)).dropWhile (· != Path.slash)).reverse

/-- Makes a directory and those above it that are missing. What was made before a failure stays, so
the file system is given in any case. -/
def makeDirectories : Nat → FileSystem → Text → FileSystem × Except PathError Unit
  | 0, fs, path => (fs, .error ⟨"mkdir", path, .nameTooLong⟩)
  | fuel + 1, fs, path =>
    match fs.stat path with
    | .ok .directory => (fs, .ok ())
    | .ok _ => (fs, .error ⟨"mkdir", path, .notDirectory⟩)
    | .error _ =>
      let parent := parentPath path
      let (fs, above) := if parent = [] then (fs, .ok ()) else makeDirectories fuel fs parent
      match above with
      | .error e => (fs, .error e)
      | .ok () =>
        match fs.makeDirectory path with
        | .ok fs => (fs, .ok ())
        | .error e => if fs.isDirectory path then (fs, .ok ()) else (fs, .error e)

/-- Makes a directory and those above it. -/
def makePath (fs : FileSystem) (path : Text) : FileSystem × Except PathError Unit :=
  makeDirectories (path.length + 1) fs path

/-! ## Preparing a file system -/

/-- Puts a file at a path and makes the directories above it; does nothing where that fails. -/
def put (fs : FileSystem) (path content : Text) : FileSystem :=
  let parent := parentPath path
  let fs := if parent = [] then fs else (fs.makePath parent).1
  match fs.writeFile path content with
  | .ok fs => fs
  | .error _ => fs

/-- Puts a symbolic link at a path where nothing is. -/
def putLink (fs : FileSystem) (path target : Text) : FileSystem :=
  let parent := parentPath path
  let fs := if parent = [] then fs else (fs.makePath parent).1
  match fs.resolve false path with
  | .ok (.missing dir name) => fs.set (dir ++ [name]) (.link target)
  | _ => fs

/-- Removes what is at a path, with everything below it. -/
def remove (fs : FileSystem) (path : Text) : FileSystem :=
  match fs.resolve false path with
  | .ok (.found l _) => fs.erase l
  | _ => fs

end FileSystem
end StateForge
