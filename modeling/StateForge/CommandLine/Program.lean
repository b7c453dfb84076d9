import StateForge.CommandLine.Flag
import StateForge.Watch

/-!
# The command line

`Invocation.ofArguments` reads the arguments of the program, and `Invocation.run` does what they ask
for. Nothing is printed here: what goes to the two output channels is part of the outcome.
-/

set_option autoImplicit false

namespace StateForge
namespace CommandLine

/-! ## Flags -/

/-- Shows the machine and the changes of files. -/
def verboseFlag : Flag := ⟨"v", .switch false, "详细输出（打印解析后的模型和文件差异）"⟩

/-- Shows the usage. -/
def helpFlag : Flag := ⟨"h", .switch false, "显示帮助信息"⟩

/-- The base name of the artifacts. -/
def nameFlag : Flag :=
  ⟨"name", .text "StateMachine", "产物基础名称（决定文件名和 include guard）"⟩

/-- The header of the platform. -/
def platformFlag : Flag := ⟨"platform", .text "Arduino.h", "目标平台头文件"⟩

/-- The extension of the implementation. -/
def extensionFlag : Flag := ⟨"ext", .text "cpp", "实现文件扩展名"⟩

/-- Puts a diagram into the header. -/
def diagramFlag : Flag := ⟨"diagram", .switch false, "在头文件中生成 ASCII 流程图注释"⟩

/-- Leaves out validation. -/
def uncheckedFlag : Flag := ⟨"no-check", .switch false, "跳过状态引用和标识符校验"⟩

/-- The flags of the program, in the order of their names. -/
def flags : List Flag :=
  [diagramFlag, extensionFlag, helpFlag, nameFlag, uncheckedFlag, platformFlag, verboseFlag]

/-! ## Usage -/

/-- The usage before the list of flags. -/
def usageHead : Text :=
  Text.unlines
    ["cstategen - 嵌入式 C 状态机代码生成工具",
     "",
     "用法:",
     "  cstategen [选项] <输入文件> [输出目录]",
     "  cstategen [选项] gen <输入文件> [输出目录]",
     "  cstategen [选项] dev <输入文件> [输出目录]",
     "",
     "命令:",
     "  gen     执行代码生成（默认）",
     "  dev     启动开发模式，监听输入文件变动自动生成",
     "",
     "输入文件:",
     "  YAML（默认）或 JSON（.json 后缀），结构如下:",
     "    start: IDLE",
     "    states:",
     "      - name: IDLE",
     "        run: idle",
     "        transitions:",
     "          - predicate: \"!done\"   # 可省略，省略时无条件流转",
     "            state: RUN",
     "",
     "输出:",
     "  <name>.h 和 <name>.<ext>，内容未变化时不会重写文件",
     "",
     "选项:"]

/-- The usage after the list of flags. -/
def usageTail : Text :=
  Text.unlines
    ["",
     "示例:",
     "  cstategen machine.yaml                    生成到当前目录",
     "  cstategen machine.yaml src/               生成到 src 目录",
     "  cstategen -ext c -platform stdint.h m.yml 生成纯 C 工程使用的文件",
     "  cstategen -v -diagram machine.yaml        详细模式，头文件带流程图",
     "  cstategen dev machine.yaml src/           开发模式，监听文件变动"]

/-- How the program is used. -/
def usage : Text :=
  usageHead ++ flags.flatMap Flag.help ++ usageTail

/-! ## Invocations -/

/-- What the arguments ask for. -/
inductive Invocation where
  /-- The flags are at fault. -/
  | flagError (e : FlagError)
  /-- Help was asked for. -/
  | help
  /-- There are too few arguments or too many. -/
  | misuse
  | generate (o : GenerateOptions)
  | watch (o : GenerateOptions)

namespace Invocation

/-- The options of a run, from the settings of the flags and the other arguments: the document, and
perhaps the output directory. -/
def options? (settings : Flag.Settings) (arguments : List Text) : Option GenerateOptions :=
  let base (input directory : Text) : GenerateOptions :=
    { input
      outputDirectory := directory
      baseName := nameFlag.textOf settings
      platform := platformFlag.textOf settings
      extension := extensionFlag.textOf settings
      diagram := diagramFlag.isOn settings
      unchecked := uncheckedFlag.isOn settings
      verbose := verboseFlag.isOn settings }
  match arguments with
  | [input] => some (base input Path.here)
  | [input, directory] => some (base input directory)
  | _ => none

/-- The command that the arguments after the flags name, and its own arguments. -/
def ofCommand (settings : Flag.Settings) (arguments : List Text) : Invocation :=
  let generation (arguments : List Text) : Invocation :=
    match options? settings arguments with
    | some o => generate o
    | none => misuse
  match arguments with
  | [] => misuse
  | command :: rest =>
    if command = Text.ofString "gen" then generation rest
    else if command = Text.ofString "dev" then
      match options? settings rest with
      | some o => watch o
      | none => misuse
    else generation arguments

/-- Reads the arguments of the program. -/
def ofArguments (arguments : List Text) : Invocation :=
  match Flag.parse flags [] arguments with
  | .error .help => help
  | .error e => flagError e
  | .ok (settings, rest) => if helpFlag.isOn settings then help else ofCommand settings rest

end Invocation

/-! ## Running -/

/-- What the program does. -/
structure Outcome where
  /-- The exit code. -/
  exitCode : Nat
  fileSystem : FileSystem
  /-- What is shown on the standard channel. -/
  notices : List Notice
  /-- What is written to the error channel. -/
  errors : Text

/-- An error of the program, as it is shown. -/
def errorLine (message : Text) : Text :=
  "错误: " ++ message ++ "\n"

/-- A generation from the command line. -/
def runGeneration (w : Wording) (o : GenerateOptions) (fs : FileSystem) : Outcome :=
  let outcome := o.generate fs
  match outcome.result with
  | .error e => ⟨1, outcome.fileSystem, outcome.notices, errorLine (e.message w)⟩
  | .ok stats =>
    let summary := if o.verbose then [.summary stats] else []
    ⟨0, outcome.fileSystem, outcome.notices ++ summary ++ [.done], []⟩

/-- The watch mode from the command line, which is told to end as soon as it has started. -/
def runWatch (o : GenerateOptions) (fs : FileSystem) : Outcome :=
  match o.startWatching fs with
  | .error e => ⟨1, fs, [], errorLine (watchErrorMessage e)⟩
  | .ok outcome => ⟨0, outcome.fileSystem, outcome.notices ++ [.leaving], []⟩

/-- Runs the program. -/
def Invocation.run (w : Wording) (fs : FileSystem) : Invocation → Outcome
  | flagError e =>
    let line := match e.message? with
      | some m => m ++ [Text.newline]
      | none => []
    ⟨2, fs, [], line ++ usage⟩
  | help => ⟨0, fs, [], usage⟩
  | misuse => ⟨1, fs, [], usage⟩
  | generate o => runGeneration w o fs
  | watch o => runWatch o fs

end CommandLine
end StateForge
