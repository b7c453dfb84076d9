import StateForge.Yaml.Scalar
import StateForge.Yaml.Token

/-!
# Anchors, tags and directives

The parts of a YAML text that say something about a node or about the document: names of anchors,
tags, and the directives before a document.
-/

set_option autoImplicit false

namespace StateForge
namespace Yaml

/-- The characters of names: ASCII letters and digits, hyphen and underscore. -/
def isNameChar (c : Char) : Bool :=
  ('0' ≤ c && c ≤ '9') || ('A' ≤ c && c ≤ 'Z') || ('a' ≤ c && c ≤ 'z') || c == '_' || c == '-'

/-! ## Anchors and aliases -/

/-- The characters that may follow a name directly, besides blanks. -/
def endsName (c : Char) : Bool :=
  c == '?' || c == ':' || c == ',' || c == ']' || c == '}' || c == '%' || c == '@' || c == '`'

/-- Reads the name of an anchor or alias, whose indicator is at `c`. -/
def scanAnchor (c : Cursor) : Except Fault (Text × Cursor) :=
  let name := c.skip.rest.takeWhile isNameChar
  let c' := c.advance (name.length + 1)
  if name == [] || !(c'.blankAt 0 || (c'.peek?.map endsName).getD false) then .error .anchorName
  else .ok (Text.ofChars name, c')

/-! ## Tags -/

/-- The characters that stand for themselves in a tag. -/
def isUriChar (c : Char) : Bool :=
  isNameChar c || c == ';' || c == '/' || c == '?' || c == ':' || c == '@' || c == '&' ||
    c == '=' || c == '+' || c == '$' || c == ',' || c == '.' || c == '!' || c == '~' ||
    c == '*' || c == '\'' || c == '(' || c == ')' || c == '[' || c == ']'

/-- The byte that a percent sign and two hexadecimal digits stand for. -/
def octet? : List Char → Option UInt8
  | '%' :: a :: b :: _ => do
    let high ← hexDigit? a
    let low ← hexDigit? b
    return (high * 16 + low).toUInt8
  | _ => none

/-- The length of the UTF-8 sequence that starts with a byte, or 0 if none does. -/
def sequenceLength (b : UInt8) : Nat :=
  if b < 0x80 then 1
  else if b < 0xc0 then 0
  else if b < 0xe0 then 2
  else if b < 0xf0 then 3
  else if b < 0xf8 then 4
  else 0

/-- Reads `n` escaped bytes that continue a sequence. -/
def scanTailOctets : Nat → Cursor → Except Fault (Text × Cursor)
  | 0, c => .ok ([], c)
  | n + 1, c =>
    match octet? c.rest with
    | some b =>
      if Text.isContinuation b then do
        let (tail, c') ← scanTailOctets n (c.advance 3)
        return (b :: tail, c')
      else .error .tag
    | none => .error .tag

/-- Reads the escaped bytes of one character. -/
def scanOctets (c : Cursor) : Except Fault (Text × Cursor) :=
  match octet? c.rest with
  | none => .error .tag
  | some b =>
    match sequenceLength b with
    | 0 => .error .tag
    | n + 1 => do
      let (tail, c') ← scanTailOctets n (c.advance 3)
      return (b :: tail, c')

/-- Reads as much of a tag as there is, after `text`. -/
def scanUri : Nat → Text → Cursor → Except Fault (Text × Cursor)
  | 0, text, c => .ok (text, c)
  | fuel + 1, text, c =>
    match c.rest with
    | [] => .ok (text, c)
    | x :: _ =>
      if x == '%' then do
        let (bytes, c') ← scanOctets c
        scanUri fuel (text ++ bytes) c'
      else if isUriChar x then scanUri fuel (text ++ Text.ofChars [x]) c.skip
      else .ok (text, c)

/-- Reads a handle: an exclamation mark, a name, and another mark if there is one. -/
def scanHandle (c : Cursor) : Except Fault (List Char × Cursor) :=
  if c.isOn '!' then
    let name := c.skip.rest.takeWhile isNameChar
    let c' := c.advance (name.length + 1)
    if c'.isOn '!' then .ok ('!' :: name ++ ['!'], c'.skip) else .ok ('!' :: name, c')
  else .error .tag

/-- Reads a tag in its full form, `!<tag>`. -/
def scanVerbatimTag (c : Cursor) : Except Fault (Lexeme × Cursor) := do
  let (suffix, c') ← scanUri c.fuel [] (c.advance 2)
  if suffix == [] || !c'.isOn '>' then .error .tag
  else return (.tag [] suffix, c'.skip)

/-- Reads a tag in one of the forms `!suffix`, `!handle!suffix` and `!`. -/
def scanShorthandTag (c : Cursor) : Except Fault (Lexeme × Cursor) := do
  let (handle, c') ← scanHandle c
  if handle.length > 1 && handle.getLast? == some '!' then
    let (suffix, c'') ← scanUri c'.fuel [] c'
    if suffix == [] then .error .tag
    else return (.tag (Text.ofChars handle) suffix, c'')
  else
    let (suffix, c'') ← scanUri c'.fuel (Text.ofChars handle.tail) c'
    if suffix == [] then return (.tag [] "!", c'')
    else return (.tag "!" suffix, c'')

/-- Reads a tag, which a blank has to follow. -/
def scanTag (c : Cursor) : Except Fault (Lexeme × Cursor) := do
  let (tag, c') ← if c.skip.isOn '<' then scanVerbatimTag c else scanShorthandTag c
  if c'.blankAt 0 then return (tag, c') else .error .tag

/-! ## Directives -/

/-- Reads a number of one or two digits. -/
def scanVersionNumber (c : Cursor) : Except Fault (Nat × Cursor) :=
  let digits := c.rest.takeWhile Char.isDigit
  if digits == [] || digits.length > 2 then .error .directive
  else .ok (digits.foldl (fun n d => n * 10 + (d.toNat - 0x30)) 0, c.advance digits.length)

/-- Reads the version in a version directive. -/
def scanVersion (c : Cursor) : Except Fault (Lexeme × Cursor) := do
  let (major, c') ← scanVersionNumber (c.skipWhile isBlank)
  if c'.isOn '.' then
    let (minor, c'') ← scanVersionNumber c'.skip
    return (.versionDirective major minor, c'')
  else .error .directive

/-- Reads the handle and what it stands for in a tag directive. -/
def scanTagDirective (c : Cursor) : Except Fault (Lexeme × Cursor) := do
  let (handle, c') ← scanHandle (c.skipWhile isBlank)
  if handle != ['!'] && handle.getLast? != some '!' then .error .directive
  else if !(c'.peek?.map isBlank).getD false then .error .directive
  else
    let c' := c'.skipWhile isBlank
    let (lead, c'') ← scanUri c'.fuel [] c'
    if lead == [] || !c''.blankAt 0 then .error .directive
    else return (.tagDirective (Text.ofChars handle) lead, c'')

/-- Reads a directive to the end of its line; `c` is on the percent sign. -/
def scanDirective (c : Cursor) : Except Fault (Lexeme × Cursor) := do
  let name := c.skip.rest.takeWhile isNameChar
  let c' := c.advance (name.length + 1)
  if !c'.blankAt 0 then .error .directive
  else
    let (lexeme, c'') ←
      if name == ['Y', 'A', 'M', 'L'] then scanVersion c'
      else if name == ['T', 'A', 'G'] then scanTagDirective c'
      else .error .directive
    let c'' := c''.skipWhile isBlank
    let c'' := if c''.isOn '#' then c''.skipWhile fun x => !isBreak x else c''
    if c''.atLineEnd then return (lexeme, c''.skipBreak) else .error .directive

end Yaml
end StateForge
