import StateForge.Text.Basic

/-!
# C identifiers

The names of states, actions and predicates end up as identifiers of generated code. An identifier
is tested byte by byte, so only ASCII letters count as letters.
-/

set_option autoImplicit false

namespace StateForge

/-- ASCII letters and the underscore. -/
def isIdentifierStart (b : UInt8) : Bool :=
  (0x61 ≤ b && b ≤ 0x7a) || (0x41 ≤ b && b ≤ 0x5a) || b == 0x5f

/-- ASCII decimal digits. -/
def isDigitByte (b : UInt8) : Bool :=
  0x30 ≤ b && b ≤ 0x39

/-- What may stand in an identifier after its first byte. -/
def isIdentifierPart (b : UInt8) : Bool :=
  isIdentifierStart b || isDigitByte b

namespace Text

/-- Has the text the form of an identifier? -/
def isIdentifier : Text → Bool
  | [] => false
  | b :: rest => isIdentifierStart b && rest.all isIdentifierPart

end Text

/-- Keywords of C and C++, which no generated name may be. -/
def reservedWords : List String :=
  ["auto", "break", "case", "char", "const", "continue", "default", "do", "double", "else", "enum",
   "extern", "float", "for", "goto", "if", "inline", "int", "long", "register", "restrict",
   "return", "short", "signed", "sizeof", "static", "struct", "switch", "typedef", "union",
   "unsigned", "void", "volatile", "while",
   "bool", "catch", "class", "delete", "false", "friend", "namespace", "new", "nullptr",
   "operator", "private", "protected", "public", "template", "this", "throw", "true", "try",
   "typename", "using", "virtual"]

/-- Is the text a keyword? -/
def Text.isReserved (s : Text) : Bool :=
  reservedWords.any fun word => Text.ofString word == s

end StateForge
