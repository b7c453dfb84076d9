import StateForge.Generation

/-!
# Watch mode

In watch mode a generation runs whenever the document changes. Changes come in bursts, so each one
only schedules a generation, and the generation runs when nothing has happened for a while: when the
timer *fires*. A timer that is set again replaces the one before.
-/

set_option autoImplicit false

namespace StateForge

/-- Something that happened to a file. -/
structure FileEvent where
  name : Text
  /-- The kinds of the event, one bit each: 1 created, 2 written, 4 removed, 8 renamed, 16 changed
  mode. -/
  kinds : Nat
deriving DecidableEq

namespace FileEvent

/-- Can the event have changed the content of the file? -/
def isModification (e : FileEvent) : Bool :=
  e.kinds.testBit 0 || e.kinds.testBit 1

end FileEvent

/-- The state of the watch mode. -/
structure Watcher where
  options : GenerateOptions
  /-- The cleaned path of the document from the root. -/
  target : Text
  /-- Is a generation scheduled? -/
  scheduled : Bool := false
  /-- The number of generations so far. -/
  runs : Nat := 0
  /-- Has the watch mode been told to end? -/
  cancelled : Bool := false

/-- What a step of the watch mode does. -/
structure WatchOutcome where
  watcher : Watcher
  fileSystem : FileSystem
  notices : List Notice

/-- The path of the current directory. -/
def FileSystem.currentPath (fs : FileSystem) : Text :=
  Path.slash :: [Path.slash].intercalate fs.current

/-- The cleaned path from the root that a path stands for. -/
def FileSystem.absolutePath (fs : FileSystem) (path : Text) : Text :=
  Path.absolute fs.currentPath path

namespace Watcher

/-- A watcher for the document that the options name. -/
def make (options : GenerateOptions) (fs : FileSystem) : Watcher :=
  { options, target := fs.absolutePath options.input }

/-- Is the event a change of the document? -/
def isRelevant (w : Watcher) (fs : FileSystem) (e : FileEvent) : Bool :=
  e.isModification && fs.absolutePath e.name == w.target

/-- Takes an event: a change of the document schedules a generation. -/
def handle (w : Watcher) (fs : FileSystem) (e : FileEvent) : WatchOutcome :=
  if w.isRelevant fs e then
    ⟨{ w with scheduled := true }, fs,
      if w.options.verbose then [.changeSeen w.target] else []⟩
  else ⟨w, fs, []⟩

/-- The notice after a generation. -/
def resultNotices (w : Watcher) : Except GenerateError GenerateStats → List Notice
  | .error e => [.failed e]
  | .ok stats =>
    if 0 < stats.written then [.generated stats.written]
    else if w.options.verbose then [.nothingToDo]
    else []

/-- Generates at once. -/
def run (w : Watcher) (fs : FileSystem) : WatchOutcome :=
  let outcome := w.options.generate fs
  ⟨{ w with runs := w.runs + 1 }, outcome.fileSystem,
    outcome.notices ++ w.resultNotices outcome.result⟩

/-- The timer of the scheduled generation fires. -/
def fire (w : Watcher) (fs : FileSystem) : WatchOutcome :=
  if !w.scheduled then ⟨w, fs, []⟩
  else
    let w := { w with scheduled := false }
    if w.cancelled then ⟨w, fs, []⟩ else w.run fs

/-- Tells the watch mode to end. -/
def cancel (w : Watcher) : Watcher :=
  { w with cancelled := true }

/-- What the system hands to the watch mode. -/
inductive Signal where
  | event (e : FileEvent)
  | problem (text : Text)
deriving DecidableEq

/-- Takes what the system hands over; problems are only shown in verbose mode. -/
def receive (w : Watcher) (fs : FileSystem) : Signal → WatchOutcome
  | .event e => w.handle fs e
  | .problem text => ⟨w, fs, if w.options.verbose then [.watcherError text] else []⟩

/-- Takes signals one after the other, as long as the watch mode is not told to end. -/
def loop (w : Watcher) (fs : FileSystem) : List Signal → WatchOutcome
  | [] => ⟨w, fs, []⟩
  | s :: rest =>
    if w.cancelled then ⟨w, fs, []⟩
    else
      let first := w.receive fs s
      let others := first.watcher.loop first.fileSystem rest
      { others with notices := first.notices ++ others.notices }

end Watcher

/-- Starts the watch mode: the document has to be there, and a first generation runs at once. -/
def GenerateOptions.startWatching (o : GenerateOptions) (fs : FileSystem) :
    Except PathError WatchOutcome :=
  let watcher := Watcher.make o fs
  match fs.stat watcher.target with
  | .error e => .error e
  | .ok _ =>
    let outcome := watcher.run fs
    .ok { outcome with notices := outcome.notices ++ [.watching watcher.target] }

/-- The wording of the error that ends the watch mode before it starts. -/
def watchErrorMessage (e : PathError) : Text :=
  "输入文件不可用: " ++ e.message

end StateForge
