import StateForge.Json.Decode
import StateForge.Yaml.Decode

/-!
# Words that depend on the circumstances

Most of what the program says is fixed. Two things are not: how the time that a run took is written,
and how a fault in the form of a text is described. Everything that puts a message into words takes a
`Wording`.
-/

set_option autoImplicit false

namespace StateForge

/-- The changing parts of messages. -/
structure Wording where
  /-- The description of a fault in a YAML text. -/
  yamlFault : Yaml.Fault → Text
  /-- The description of a fault in a JSON text. -/
  jsonError : JsonError → Text
  /-- The time that the run took. -/
  elapsed : Text

namespace Yaml.Fault

/-- A description of a fault. -/
def description : Fault → Text
  | encoding => "yaml: the text is not well encoded"
  | unexpectedCharacter => "yaml: found a character that cannot start any token"
  | tabIndentation => "yaml: found a tab where only spaces indent"
  | missingColon => "yaml: could not find the colon of a key"
  | misplacedIndicator => "yaml: an entry, key or value is not allowed here"
  | directive => "yaml: found an unknown or malformed directive"
  | version => "yaml: the document needs another version of YAML"
  | anchorName => "yaml: found an anchor or alias without a name"
  | tag => "yaml: found a malformed or undeclared tag"
  | blockHeader => "yaml: found a malformed header of a block scalar"
  | unclosedQuote => "yaml: found the end of the document inside quotes"
  | escape => "yaml: found an unknown or malformed escape"
  | depth => "yaml: collections are nested too deeply"
  | grammar => "yaml: the parts of the document do not fit together"
  | unknownAnchor => "yaml: an alias refers to no anchor"
  | selfReference => "yaml: the value of an anchor contains itself"
  | excessiveAliasing => "yaml: the document contains too many aliases"
  | tagMismatch => "yaml: a scalar does not fit its tag"
  | base64 => "yaml: binary data are not in base 64"
  | mergeOperand => "yaml: a merge needs a mapping or a list of mappings"

end Yaml.Fault

namespace JsonError

/-- A description of a fault. -/
def description : JsonError → Text
  | syntaxError => "json: the text is malformed"
  | typeError => "json: a value has the wrong type for its field"

end JsonError

namespace Wording

/-- The words of the program itself, for a run that took the given time. -/
def standard (elapsed : Text) : Wording :=
  ⟨Yaml.Fault.description, JsonError.description, elapsed⟩

end Wording

end StateForge
