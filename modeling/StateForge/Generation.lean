import StateForge.Artifact.Writer
import StateForge.Document.Load
import StateForge.Machine.Dump
import StateForge.Machine.Source
import StateForge.Machine.Validation

/-!
# Generation

A generation reads a machine from a file, validates it, and writes its header and implementation
where they have changed. What it tells the user is a list of notices; `Notice.text` puts them into
words.
-/

set_option autoImplicit false

namespace StateForge

/-- What to generate, and how. -/
structure GenerateOptions where
  /-- The path of the document. -/
  input : Text
  /-- The output directory; the current one if empty. -/
  outputDirectory : Text := []
  baseName : Text := []
  platform : Text := []
  /-- The extension of the implementation, with or without its dot. -/
  extension : Text := []
  diagram : Bool := false
  /-- Is validation left out? -/
  unchecked : Bool := false
  verbose : Bool := false

/-- The numbers that a generation reports. -/
structure GenerateStats where
  states : Nat
  written : Nat
  unchanged : Nat
deriving DecidableEq

/-- Why a generation failed. -/
inductive GenerateError where
  | load (e : LoadError)
  | invalid (violations : List Violation)
  | write (e : WriteError)
deriving DecidableEq

namespace GenerateError

/-- The wording of an error. -/
def message (w : Wording) : GenerateError → Text
  | load e => e.message w
  | invalid violations => "状态机校验失败:\n" ++ Violation.report violations
  | write e => e.message

end GenerateError

/-- Something that the user is told. -/
inductive Notice where
  /-- A machine was read. -/
  | parsed (input : Text) (states : Nat)
  /-- The machine, in verbose mode. -/
  | model (m : Machine)
  /-- The changes of a file, in verbose mode. -/
  | diff (lines : List Text)
  | fileWritten (path : Text)
  | fileUnchanged (path : Text)
  /-- The numbers of a generation, in verbose mode. -/
  | summary (stats : GenerateStats)
  | done
  /-- A generation in watch mode wrote files. -/
  | generated (written : Nat)
  /-- A generation in watch mode wrote nothing. -/
  | nothingToDo
  /-- A generation in watch mode failed. -/
  | failed (e : GenerateError)
  | watching (target : Text)
  | changeSeen (path : Text)
  | watcherError (problem : Text)
  | leaving
deriving DecidableEq

namespace Notice

/-- The wording of a notice. -/
def text (w : Wording) : Notice → Text
  | parsed input states =>
    "输入解析成功: " ++ input ++ " (" ++ Text.decimal states ++ " 个状态)\n"
  | model m => Text.unlines m.dump
  | diff lines => Text.unlines lines
  | fileWritten path => "生成文件: " ++ path ++ "\n"
  | fileUnchanged path => "文件未变化: " ++ path ++ "\n"
  | summary stats =>
    "\n统计: " ++ Text.decimal stats.states ++ " 个状态, 写入 " ++ Text.decimal stats.written ++
      " 个文件, 未变化 " ++ Text.decimal stats.unchanged ++ " 个文件\n耗时: " ++ w.elapsed ++ "\n"
  | done => "完成。\n"
  | generated written =>
    "生成完成: " ++ Text.decimal written ++ " 个文件 (耗时: " ++ w.elapsed ++ ")\n"
  | nothingToDo => "生成完成: 无文件变化\n"
  | failed e => "生成失败: " ++ e.message w ++ "\n"
  | watching target => "开发模式已启动，监听 " ++ target ++ "\n按 Ctrl+C 退出\n\n"
  | changeSeen path => "检测到文件变化: " ++ path ++ "\n"
  | watcherError problem => "监听错误: " ++ problem ++ "\n"
  | leaving => "\n正在退出...\n"

end Notice

namespace GenerateOptions

/-- The layout of the sources. -/
def layout (o : GenerateOptions) : SourceLayout :=
  .ofOptions o.baseName o.platform o.diagram

/-- The extension without one leading dot; `cpp` if nothing is left. -/
def sourceExtension (o : GenerateOptions) : Text :=
  let bare := (Text.cutPrefix? "." o.extension).getD o.extension
  if bare = [] then "cpp" else bare

/-- The artifacts of a machine: its header and its implementation. -/
def artifacts (o : GenerateOptions) (m : Machine) : List Artifact :=
  [⟨o.layout.headerName, o.layout.header m⟩,
   ⟨o.layout.implementationName o.sourceExtension, o.layout.implementation m⟩]

/-- Where the artifacts are written to. -/
def writer (o : GenerateOptions) : Writer :=
  .make o.outputDirectory o.verbose

/-- The paths that a generation reads or writes. -/
def paths (o : GenerateOptions) : List Text :=
  [o.input, o.writer.directory,
   o.writer.path ⟨o.layout.headerName, []⟩,
   o.writer.path ⟨o.layout.implementationName o.sourceExtension, []⟩]

end GenerateOptions

/-- What a generation does. -/
structure GenerateOutcome where
  fileSystem : FileSystem
  notices : List Notice
  result : Except GenerateError GenerateStats

namespace GenerateOutcome

/-- The outcome with more notices in front. -/
def prepend (notices : List Notice) (o : GenerateOutcome) : GenerateOutcome :=
  { o with notices := notices ++ o.notices }

end GenerateOutcome

/-- The notices about an artifact that was written or left alone. -/
def WriteStatus.notice (path : Text) (status : WriteStatus) : Notice :=
  if status.isWritten then .fileWritten path else .fileUnchanged path

/-- The numbers after one more artifact. -/
def GenerateStats.count (stats : GenerateStats) (status : WriteStatus) : GenerateStats :=
  if status.isWritten then { stats with written := stats.written + 1 }
  else { stats with unchanged := stats.unchanged + 1 }

/-- The notice that shows a diff; none if there is nothing to show. -/
def diffNotices (shown : List Text) : List Notice :=
  if shown = [] then [] else [.diff shown]

/-- Writes the artifacts of a generation one after the other, up to the first that fails. -/
def Writer.emit (w : Writer) (fs : FileSystem) (stats : GenerateStats) :
    List Artifact → GenerateOutcome
  | [] => ⟨fs, [], .ok stats⟩
  | a :: rest =>
    let outcome := w.write fs a
    let shown := diffNotices outcome.shown
    match outcome.result with
    | .error e => ⟨outcome.fileSystem, shown, .error (.write e)⟩
    | .ok status =>
      (w.emit outcome.fileSystem (stats.count status) rest).prepend
        (shown ++ [status.notice (w.path a)])

/-- The outcome of a generation for a machine that was read. -/
def GenerateOptions.generateFrom (o : GenerateOptions) (fs : FileSystem) (m : Machine) :
    GenerateOutcome :=
  let read := [.parsed o.input m.states.length] ++ if o.verbose then [.model m] else []
  if !o.unchecked && m.violations != [] then ⟨fs, read, .error (.invalid m.violations)⟩
  else (o.writer.emit fs ⟨m.states.length, 0, 0⟩ (o.artifacts m)).prepend read

/-- Reads, validates and writes. -/
def GenerateOptions.generate (o : GenerateOptions) (fs : FileSystem) : GenerateOutcome :=
  match Machine.load fs o.input with
  | .error e => ⟨fs, [], .error (.load e)⟩
  | .ok m => o.generateFrom fs m

end StateForge
