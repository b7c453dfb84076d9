import StateForge.FileSystem.Access
import StateForge.Wording

/-!
# Reading documents

A document is in JSON if the name of its file says so, and in YAML otherwise. `Document.parse` reads
the fields, `Machine.decode` goes on to the machine, and `Machine.load` starts from a file.
-/

set_option autoImplicit false

namespace StateForge

/-- The formats of documents. -/
inductive Format where
  | yaml
  | json
  /-- A format that there is no reader for. -/
  | unknown
deriving DecidableEq

namespace Format

/-- The name of a format. -/
def name : Format → Text
  | yaml => "yaml"
  | json => "json"
  | unknown => "unknown"

/-- The format with a number, as callers outside write it. -/
def ofCode (n : Int) : Format :=
  if n = 1 then yaml else if n = 2 then json else unknown

/-- The format of a file, by the extension of its name. -/
def ofPath (path : Text) : Format :=
  if (Path.extension path).foldsTo ".json" then json else yaml

end Format

/-- Why a text describes no machine. -/
inductive DocumentError where
  /-- There is nothing but white space. -/
  | empty
  | unsupported (format : Format)
  | yaml (e : Document.YamlError)
  | json (e : JsonError)
  /-- The document can be read, but it describes no machine. -/
  | build (e : BuildError)
deriving DecidableEq

namespace DocumentError

/-- Is the error of the given kind? An error that comes from the fields of a document is also of the
kind of its cause. -/
def isOf : DocumentError → BuildErrorKind → Bool
  | build e, kind => e.isOf kind
  | _, kind => kind == .malformedDocument

/-- What is wrong with the text. -/
def detail (w : Wording) : DocumentError → Text
  | empty => "empty document"
  | unsupported format => "unsupported format " ++ format.name
  | yaml (.fault fault) => w.yamlFault fault
  | yaml (.complaints complaints) => Yaml.Complaint.report complaints
  | json e => w.jsonError e
  | build e => e.message

/-- The wording of an error. -/
def message (w : Wording) (e : DocumentError) : Text :=
  "malformed state machine document: " ++ e.detail w

end DocumentError

/-- Why no machine could be read from a file. -/
inductive LoadError where
  | openFailed (e : PathError)
  | readFailed (path : Text) (e : PathError)
  | malformed (path : Text) (e : DocumentError)
deriving DecidableEq

namespace LoadError

/-- The wording of an error. -/
def message (w : Wording) : LoadError → Text
  | openFailed e => "打开输入文件失败: " ++ e.message
  | readFailed path e => path ++ ": 读取文档失败: " ++ e.message
  | malformed path e => path ++ ": " ++ e.message w

end LoadError

/-- Reads the fields of a document. -/
def Document.parse (format : Format) (s : Text) : Except DocumentError Document :=
  if s.isBlank then .error .empty
  else
    match format with
    | .yaml => (Document.ofYaml s).mapError .yaml
    | .json => (Document.ofJson s).mapError .json
    | .unknown => .error (.unsupported format)

namespace Machine

/-- Reads a machine from the text of a document. -/
def decode (format : Format) (s : Text) : Except DocumentError Machine := do
  let d ← Document.parse format s
  d.build.mapError .build

/-- Reads a machine from a file. -/
def load (fs : FileSystem) (path : Text) : Except LoadError Machine := do
  let opened ← (fs.openFile path).mapError .openFailed
  let content ← (opened.read path).mapError (.readFailed path)
  (decode (.ofPath path) content).mapError (.malformed path)

end Machine

end StateForge
