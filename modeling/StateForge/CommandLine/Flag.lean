import StateForge.Text.Printable

/-!
# Flags

The flags of a command line are given with one hyphen or two, before all other arguments. A switch
is set by its name alone; a flag with a text takes the argument after it. Both may have a value after
an equals sign. The last value counts.
-/

set_option autoImplicit false

namespace StateForge

/-- The value of a flag. -/
inductive FlagValue where
  | switch (on : Bool)
  | text (s : Text)
deriving DecidableEq

/-- A flag that a program knows. -/
structure Flag where
  name : Text
  /-- Its value when it is not given; this also says what kind of flag it is. -/
  default : FlagValue
  description : Text

/-- Why the flags cannot be read. -/
inductive FlagError where
  | badSyntax (argument : Text)
  | undefined (name : Text)
  | needsArgument (name : Text)
  | invalidSwitch (value name : Text)
  /-- Help was asked for. -/
  | help
deriving DecidableEq

namespace FlagError

/-- The wording of an error; asking for help is none. -/
def message? : FlagError → Option Text
  | badSyntax argument => some ("bad flag syntax: " ++ argument)
  | undefined name => some ("flag provided but not defined: -" ++ name)
  | needsArgument name => some ("flag needs an argument: -" ++ name)
  | invalidSwitch value name =>
    some ("invalid boolean value " ++ value.quoted ++ " for -" ++ name ++ ": parse error")
  | help => none

end FlagError

namespace Flag

/-- The values that were given, last first. -/
abbrev Settings := List (Text × FlagValue)

/-- The words for the two positions of a switch. -/
def switchValue? (value : Text) : Option Bool :=
  let isOne (words : List String) : Bool := words.any fun word => Text.ofString word == value
  if isOne ["1", "t", "T", "true", "TRUE", "True"] then some true
  else if isOne ["0", "f", "F", "false", "FALSE", "False"] then some false
  else none

/-- What is written after the hyphens of an argument that is a flag. -/
inductive Form where
  /-- No flag: the flags end before this argument. -/
  | argument
  /-- Two hyphens alone: the flags end after this argument. -/
  | terminator
  | malformed
  | flag (name : Text) (value? : Option Text)
deriving DecidableEq

/-- Divides a flag at its first equals sign after the first byte. -/
def split (body : Text) : Form :=
  match body with
  | [] => .malformed
  | b :: rest =>
    if b == 0x2d || b == 0x3d then .malformed
    else
      let name := rest.takeWhile (· != 0x3d)
      match rest.drop name.length with
      | [] => .flag (b :: name) none
      | _ :: value => .flag (b :: name) (some value)

/-- The form of an argument. -/
def form (argument : Text) : Form :=
  match argument with
  | [0x2d, 0x2d] => .terminator
  | 0x2d :: 0x2d :: body => split body
  | 0x2d :: b :: body => split (b :: body)
  | _ => .argument

/-- Reads the flags in front of the arguments; gives the settings and the other arguments. -/
def parse (known : List Flag) : Settings → List Text → Except FlagError (Settings × List Text)
  | settings, [] => .ok (settings, [])
  | settings, argument :: rest =>
    match form argument with
    | .argument => .ok (settings, argument :: rest)
    | .terminator => .ok (settings, rest)
    | .malformed => .error (.badSyntax argument)
    | .flag name value? =>
      match known.find? fun f => f.name == name with
      | none =>
        if name == Text.ofString "help" || name == Text.ofString "h" then .error .help
        else .error (.undefined name)
      | some f =>
        match f.default, value?, rest with
        | .switch _, none, rest => parse known ((name, .switch true) :: settings) rest
        | .switch _, some value, rest =>
          match switchValue? value with
          | some on => parse known ((name, .switch on) :: settings) rest
          | none => .error (.invalidSwitch value name)
        | .text _, some value, rest => parse known ((name, .text value) :: settings) rest
        | .text _, none, value :: rest => parse known ((name, .text value) :: settings) rest
        | .text _, none, [] => .error (.needsArgument name)

/-- The value of a switch. -/
def isOn (settings : Settings) (f : Flag) : Bool :=
  match (settings.lookup f.name).getD f.default with
  | .switch on => on
  | .text _ => false

/-- The value of a flag with a text. -/
def textOf (settings : Settings) (f : Flag) : Text :=
  match (settings.lookup f.name).getD f.default with
  | .switch _ => []
  | .text s => s

/-- The lines that describe a flag. The description of a switch of one letter is on the same line. -/
def help (f : Flag) : Text :=
  let head :=
    match f.default with
    | .switch _ => "  -" ++ f.name
    | .text _ => "  -" ++ f.name ++ " string"
  let gap : Text := if head.length ≤ 4 then "\t" else "\n    \t"
  let standard :=
    match f.default with
    | .switch _ => []
    | .text s => if s = [] then [] else " (default " ++ s.quoted ++ ")"
  head ++ gap ++ f.description ++ standard ++ "\n"

end Flag

end StateForge
