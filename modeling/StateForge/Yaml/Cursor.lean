import StateForge.Text.Rune

/-!
# A place in a YAML text

A cursor holds the characters that are still to be read, and counts the characters, lines and
columns that lie behind it.
-/

set_option autoImplicit false

namespace StateForge
namespace Yaml

/-- Space and tab. -/
def isBlank (c : Char) : Bool :=
  c == ' ' || c == '\t'

/-- The characters that end a line. -/
def isBreak (c : Char) : Bool :=
  c == '\n' || c == '\r' || c == '\u0085' || c == '\u2028' || c == '\u2029'

/-- A place in a text. -/
structure Cursor where
  /-- What is still to be read. -/
  rest : List Char
  /-- The number of characters before this place. -/
  index : Nat := 0
  line : Nat := 0
  column : Nat := 0

namespace Cursor

/-- The next character. -/
def peek? (c : Cursor) : Option Char :=
  c.rest.head?

/-- Is this the character that comes next? -/
def isOn (c : Cursor) (x : Char) : Bool :=
  c.rest.head? == some x

/-- Moves over one character that ends no line. -/
def skip (c : Cursor) : Cursor :=
  match c.rest with
  | [] => c
  | _ :: rest => { c with rest, index := c.index + 1, column := c.column + 1 }

/-- Moves over `n` characters that end no line. -/
def advance (c : Cursor) (n : Nat) : Cursor :=
  { c with rest := c.rest.drop n, index := c.index + n, column := c.column + n }

/-- Moves over a line end, if there is one. A carriage return and a line feed are one line end. -/
def skipBreak (c : Cursor) : Cursor :=
  match c.rest with
  | '\r' :: '\n' :: rest => ⟨rest, c.index + 2, c.line + 1, 0⟩
  | x :: rest => if isBreak x then ⟨rest, c.index + 1, c.line + 1, 0⟩ else c
  | [] => c

/-- What a line end contributes to a scalar: a line feed, except that the line and paragraph
separators stand for themselves. -/
def breakText (c : Cursor) : List Char :=
  match c.rest with
  | x :: _ =>
    if x == '\u2028' || x == '\u2029' then [x] else if isBreak x then ['\n'] else []
  | [] => []

/-- Moves over the longest run of characters with a property, none of which ends a line. -/
def skipWhile (c : Cursor) (p : Char → Bool) : Cursor :=
  c.advance (c.rest.takeWhile p).length

/-- Is the end of the text or of a line here? -/
def atLineEnd (c : Cursor) : Bool :=
  match c.rest with
  | [] => true
  | x :: _ => isBreak x

/-- Does a blank, the end of a line or of the text stand `n` characters from here? -/
def blankAt (c : Cursor) (n : Nat) : Bool :=
  match c.rest.drop n with
  | [] => true
  | x :: _ => isBlank x || isBreak x

/-- Does a space, the end of a line or of the text stand `n` characters from here? -/
def spaceAt (c : Cursor) (n : Nat) : Bool :=
  match c.rest.drop n with
  | [] => true
  | x :: _ => x == ' ' || isBreak x

/-- Does a line that starts a document, or ends one, begin here? -/
def atDocumentMark (c : Cursor) : Bool :=
  c.column == 0 && c.blankAt 3 &&
    (c.rest.take 3 == ['-', '-', '-'] || c.rest.take 3 == ['.', '.', '.'])

/-- A bound for loops that move the cursor in each step. -/
def fuel (c : Cursor) : Nat :=
  c.rest.length + 1

end Cursor

end Yaml
end StateForge
