import StateForge.Diff.Unified
import StateForge.FileSystem.Access

/-!
# Writing generated files

An artifact is only written when its lines differ from those of the file that is there, so that a
build does not take an unchanged file for a new one.

A file is read as lines that end with a line feed or with a carriage return and a line feed. The
last line may lack its end; after a final line end there is no further line. Lines are read through
a buffer, so one that is too long for it cannot be read.
-/

set_option autoImplicit false

namespace StateForge

/-! ## The lines of a file -/

namespace Lines

/-- The longest line that can be read, without its line feed. -/
def maxLength : Nat := 16 * 1024 * 1024 - 1

/-- The texts between line feeds, without the empty one after the last line feed. `line` is the
beginning of the current line and `lines` are those before, both in reverse. -/
def splitFrom (lines : List Text) (line : Text) : Text → List Text
  | [] => (if line.isEmpty then lines else line.reverse :: lines).reverse
  | b :: rest =>
    if b = Text.newline then splitFrom (line.reverse :: lines) [] rest
    else splitFrom lines (b :: line) rest

/-- The line without one carriage return at its end. -/
def dropCarriageReturn (line : Text) : Text :=
  if line.getLast? = some Text.carriageReturn then line.dropLast else line

/-- The lines of a file, unless one of them is too long. -/
def ofContent? (content : Text) : Option (List Text) :=
  let raw := splitFrom [] [] content
  if raw.all fun line => line.length ≤ maxLength then some (raw.map dropCarriageReturn) else none

end Lines

/-! ## Artifacts -/

/-- A generated file. -/
structure Artifact where
  /-- Its name, relative to the output directory. -/
  name : Text
  lines : List Text
deriving DecidableEq

/-- The content of the file. -/
def Artifact.content (a : Artifact) : Text :=
  Text.unlines a.lines

/-- What happened to a file. -/
inductive WriteStatus where
  /-- The file has these lines already. -/
  | unchanged
  /-- There was no file. -/
  | created
  /-- There was a file with other lines. -/
  | updated
deriving DecidableEq

namespace WriteStatus

/-- The name of a status. -/
def name : WriteStatus → Text
  | unchanged => "unchanged"
  | created => "created"
  | updated => "updated"

/-- The status with a number, as callers outside write it. -/
def ofCode? (n : Int) : Option WriteStatus :=
  if n = 0 then some unchanged
  else if n = 1 then some created
  else if n = 2 then some updated
  else none

/-- The name of the status with a number; numbers that have none are unknown. -/
def codeName (n : Int) : Text :=
  match ofCode? n with
  | some status => status.name
  | none => "unknown"

/-- Was the file written? -/
def isWritten : WriteStatus → Bool
  | unchanged => false
  | created => true
  | updated => true

end WriteStatus

/-- Why the lines of a file cannot be read. -/
inductive ReadError where
  | system (e : PathError)
  | lineTooLong
deriving DecidableEq

namespace ReadError

/-- The wording of an error. -/
def message : ReadError → Text
  | system e => e.message
  | lineTooLong => "bufio.Scanner: token too long"

/-- Is there no such file? -/
def isMissing : ReadError → Bool
  | system e => e.cause == .noEntry
  | lineTooLong => false

end ReadError

/-- Why an artifact could not be written. -/
inductive WriteError where
  | read (path : Text) (cause : ReadError)
  | makeDirectory (cause : PathError)
  | write (path : Text) (cause : PathError)
deriving DecidableEq

namespace WriteError

/-- The wording of an error. -/
def message : WriteError → Text
  | read path cause => "读取 " ++ path ++ " 失败: " ++ cause.message
  | makeDirectory cause => "创建目录失败: " ++ cause.message
  | write path cause => "写入 " ++ path ++ " 失败: " ++ cause.message

end WriteError

/-- The lines of the file at a path. -/
def FileSystem.readLines (fs : FileSystem) (path : Text) : Except ReadError (List Text) :=
  match fs.openFile path with
  | .error e => .error (.system e)
  | .ok opened =>
    match opened.read path with
    | .error e => .error (.system e)
    | .ok content =>
      match Lines.ofContent? content with
      | some lines => .ok lines
      | none => .error .lineTooLong

/-- Where artifacts are written to. -/
structure Writer where
  directory : Text
  /-- Are the changes of updated files shown? -/
  verbose : Bool

/-- What writing an artifact does. -/
structure WriteOutcome where
  fileSystem : FileSystem
  /-- The changes that are shown, as the lines of a diff. -/
  shown : List Text
  result : Except WriteError WriteStatus

/-- The status that is reported. An artifact that could not be written counts as unchanged. -/
def WriteOutcome.status (o : WriteOutcome) : WriteStatus :=
  match o.result with
  | .ok status => status
  | .error _ => .unchanged

namespace Writer

/-- A writer; the empty name stands for the current directory. -/
def make (directory : Text) (verbose : Bool) : Writer :=
  ⟨if directory = [] then Path.here else directory, verbose⟩

/-- The path of an artifact. -/
def path (w : Writer) (a : Artifact) : Text :=
  Path.join w.directory a.name

/-- The diff that is shown before a file gets new lines. -/
def diff (w : Writer) (a : Artifact) (old : List Text) : List Text :=
  Diff.unified (w.path a ++ " (当前)") (w.path a ++ " (生成)") old a.lines

/-- Writes an artifact whose lines are not there yet. -/
def overwrite (w : Writer) (fs : FileSystem) (a : Artifact) :
    FileSystem × Except WriteError Unit :=
  match fs.makePath w.directory with
  | (fs, .error e) => (fs, .error (.makeDirectory e))
  | (fs, .ok ()) =>
    match fs.writeFile (w.path a) a.content with
    | .error e => (fs, .error (.write (w.path a) e))
    | .ok fs => (fs, .ok ())

/-- Writes an artifact, if its lines differ from those that are there. -/
def write (w : Writer) (fs : FileSystem) (a : Artifact) : WriteOutcome :=
  match fs.readLines (w.path a) with
  | .error e =>
    if e.isMissing then
      let (fs, result) := w.overwrite fs a
      ⟨fs, [], result.map fun _ => .created⟩
    else ⟨fs, [], .error (.read (w.path a) e)⟩
  | .ok old =>
    if old == a.lines then ⟨fs, [], .ok .unchanged⟩
    else
      let (fs, result) := w.overwrite fs a
      ⟨fs, if w.verbose then w.diff a old else [], result.map fun _ => .updated⟩

/-- What writing several artifacts does. -/
structure AllOutcome where
  fileSystem : FileSystem
  shown : List Text
  /-- The statuses of the artifacts before the first that failed. -/
  statuses : List WriteStatus
  /-- The failure, which ends the writing. -/
  error? : Option WriteError

/-- Writes artifacts one after the other, up to the first that fails. -/
def writeAll (w : Writer) (fs : FileSystem) : List Artifact → AllOutcome
  | [] => ⟨fs, [], [], none⟩
  | a :: rest =>
    let outcome := w.write fs a
    match outcome.result with
    | .error e => ⟨outcome.fileSystem, outcome.shown, [], some e⟩
    | .ok status =>
      let all := w.writeAll outcome.fileSystem rest
      { all with shown := outcome.shown ++ all.shown, statuses := status :: all.statuses }

end Writer

end StateForge
