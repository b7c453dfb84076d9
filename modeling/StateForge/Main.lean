import Std.Async.Signal
import StateForge.CommandLine.Program

/-!
# The program

The outer layer. It takes a picture of the files that a run can touch, lets the library say what the
run does, and carries that out. In watch mode it looks at the document ten times a second; the
library decides what a change means.
-/

set_option autoImplicit false

namespace StateForge
namespace Program

/-- A text as the system takes it. -/
def asString (s : Text) : String :=
  (String.fromUTF8? ⟨s.toArray⟩).getD ""

/-- The path of a place. -/
def pathOf (l : Location) : String :=
  asString (Path.slash :: [Path.slash].intercalate l)

/-- What the system has at a place. -/
def entryAt (l : Location) : IO (Option Entry) := do
  if ← ((← IO.currentDir) / pathOf l).isDir then return some .directory
  try
    return some (.file (← IO.FS.readBinFile (pathOf l)).toList)
  catch
    | .noFileOrDirectory .. => return none
    | .inappropriateType .. => return none
    | failure => throw failure

/-- The files and directories that a run with these options can touch. -/
def snapshot (o : GenerateOptions) : IO FileSystem := do
  let current := Path.names (Text.ofString (← IO.currentDir).toString)
  let here := FileSystem.places [] (Path.slash :: [Path.slash].intercalate current)
  let all := (here ++ o.paths.flatMap (FileSystem.places current)).eraseDups.filter (· ≠ [])
  let entries ← all.filterMapM fun l => return (← entryAt l).map fun e => (l, e)
  return ⟨entries, current⟩

/-- Makes the system agree with the outcome of a run. -/
def carryOut (before after : FileSystem) : IO Unit :=
  (before.changes after []).forM fun
    | (l, .directory) => IO.FS.createDirAll (pathOf l)
    | (l, .file content) => IO.FS.writeBinFile (pathOf l) ⟨content.toArray⟩
    | (_, .removed) => pure ()

/-- Writes a text to an output channel. -/
def write (stream : IO.FS.Stream) (s : Text) : IO Unit := do
  stream.write ⟨s.toArray⟩
  stream.flush

/-- Tells the user, with the time since `start` in milliseconds. -/
def tell (start : Nat) (notices : List Notice) : IO Unit := do
  let elapsed := Text.decimal ((← IO.monoMsNow) - start) ++ "ms"
  write (← IO.getStdout) (notices.flatMap (Notice.text (.standard elapsed)))

/-- The number of looks without a change after which a generation runs. -/
def quietLooks : Nat := 3

/-- Watches the document until the user ends the program. -/
partial def watch (isOver : IO Bool) (w : Watcher) (seen : Option Entry) (quiet : Nat) : IO Unit := do
  if ← isOver then
    write (← IO.getStdout) (Notice.text (.standard []) .leaving)
    return
  IO.sleep 100
  let now ← entryAt (Path.names w.target)
  let start ← IO.monoMsNow
  if now != seen && now.isSome then
    let files ← snapshot w.options
    let outcome := w.handle files ⟨w.target, 2⟩
    tell start outcome.notices
    watch isOver outcome.watcher now 0
  else if w.scheduled && quiet ≥ quietLooks then
    let files ← snapshot w.options
    let outcome := w.fire files
    carryOut files outcome.fileSystem
    tell start outcome.notices
    watch isOver outcome.watcher now 0
  else watch isOver w now (quiet + 1)

/-- Has the user ended the program, by one of the two signals for that? -/
def ending : IO (IO Bool) := do
  let interrupt ← (← Std.Async.Signal.Waiter.mk .sigint false).wait
  let terminate ← (← Std.Async.Signal.Waiter.mk .sigterm false).wait
  return do return (← IO.hasFinished interrupt) || (← IO.hasFinished terminate)

/-- Runs the program; gives its exit code. -/
def run (arguments : List Text) : IO UInt32 := do
  let start ← IO.monoMsNow
  let errors ← IO.getStderr
  match CommandLine.Invocation.ofArguments arguments with
  | .watch o =>
    let files ← snapshot o
    match o.startWatching files with
    | .error e =>
      write errors (CommandLine.errorLine (watchErrorMessage e))
      return 1
    | .ok outcome =>
      let isOver ← ending
      carryOut files outcome.fileSystem
      tell start outcome.notices
      watch isOver outcome.watcher (← entryAt (Path.names outcome.watcher.target)) 0
      return 0
  | invocation =>
    let files ← match invocation with
      | .generate o => snapshot o
      | _ => pure ⟨[], []⟩
    let outcome := invocation.run (.standard []) files
    carryOut files outcome.fileSystem
    tell start outcome.notices
    write errors outcome.errors
    return UInt32.ofNat outcome.exitCode

end Program
end StateForge

/-- Generates the sources of a state machine from its description. -/
def main (arguments : List String) : IO UInt32 := do
  try
    StateForge.Program.run (arguments.map StateForge.Text.ofString)
  catch failure =>
    StateForge.Program.write (← IO.getStderr)
      (StateForge.CommandLine.errorLine (StateForge.Text.ofString failure.toString))
    return 1
