/-!
# Why a YAML text is refused
-/

set_option autoImplicit false

namespace StateForge
namespace Yaml

/-- Why a YAML text is refused. The faults of the wrong type, which name a line and a value, are
not among them: see `Yaml.Complaint`. -/
inductive Fault where
  /-- The bytes are not in the encoding that the text announces, or encode a control character. -/
  | encoding
  /-- No token can start with this character. -/
  | unexpectedCharacter
  /-- A tab stands where only spaces indent. -/
  | tabIndentation
  /-- A line that has to be a key has no colon. -/
  | missingColon
  /-- An entry, key or value stands where none may start. -/
  | misplacedIndicator
  /-- A directive is unknown or not in its form. -/
  | directive
  /-- The version of YAML is not supported. -/
  | version
  /-- An anchor or alias has no name, or something else follows the name. -/
  | anchorName
  /-- A tag is not in its form, or its handle is not declared. -/
  | tag
  /-- The header of a block scalar is not in its form. -/
  | blockHeader
  /-- The text ends, or the document does, inside quotes. -/
  | unclosedQuote
  /-- An escape in double quotes is unknown or not in its form. -/
  | escape
  /-- Collections are nested too deeply. -/
  | depth
  /-- The tokens do not form a document. -/
  | grammar
  /-- An alias refers to no earlier anchor. -/
  | unknownAnchor
  /-- An anchor contains itself where its value is needed. -/
  | selfReference
  /-- Aliases make the document much larger than its text. -/
  | excessiveAliasing
  /-- A scalar does not fit its explicit tag. -/
  | tagMismatch
  /-- Binary data are not in base 64. -/
  | base64
  /-- Something other than a mapping is merged. -/
  | mergeOperand
deriving DecidableEq

end Yaml
end StateForge
