import StateForge.Text.Rune
import StateForge.Yaml.Fault

/-!
# Tokens of YAML

The indentation of a text is part of its tokens: a block collection is opened by a token of its own
and closed by `blockEnd`.
-/

set_option autoImplicit false

namespace StateForge
namespace Yaml

/-- The kinds of tokens. -/
inductive Lexeme where
  | streamEnd
  | versionDirective (major minor : Nat)
  /-- Lets `handle` abbreviate `lead` in tags. -/
  | tagDirective (handle lead : Text)
  | documentStart
  | documentEnd
  | blockSequenceStart
  | blockMappingStart
  | blockEnd
  | flowSequenceStart
  | flowSequenceEnd
  | flowMappingStart
  | flowMappingEnd
  | blockEntry
  | flowEntry
  | key
  | value
  | reference (name : Text)
  | anchor (name : Text)
  /-- A tag, in two parts; a tag that is written out in full has no handle. -/
  | tag (handle suffix : Text)
  /-- A scalar; `plain` if it is neither quoted nor in a block of its own. -/
  | scalar (text : Text) (plain : Bool)
deriving DecidableEq

/-- A token and the line that it starts in, counted from 0. -/
structure Token where
  line : Nat
  lexeme : Lexeme
deriving DecidableEq

end Yaml
end StateForge
