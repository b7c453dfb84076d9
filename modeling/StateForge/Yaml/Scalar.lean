import StateForge.Yaml.Cursor
import StateForge.Yaml.Fault

/-!
# Scalars in YAML texts

Three ways to write a scalar: plain, quoted, and as a block of indented lines. Each function starts
at the first character of the scalar and gives its text and the place after it.

Line ends inside a plain or quoted scalar are *folded*: a single one is a space, and of several the
first is left out.
-/

set_option autoImplicit false

namespace StateForge
namespace Yaml

/-! ## Runs of blanks and line ends -/

/-- A run of blanks and line ends inside a scalar. -/
structure Gap where
  /-- The blanks before the first line end. -/
  blanks : List Char
  /-- The first line end. -/
  lead? : Option (List Char)
  /-- The line ends after the first. -/
  more : List Char
deriving DecidableEq

namespace Gap

/-- A run with nothing in it. -/
def empty : Gap := ⟨[], none, []⟩

/-- Does the run end a line? -/
def breaksLine (g : Gap) : Bool :=
  g.lead?.isSome

/-- What the run contributes to the scalar. -/
def folded (g : Gap) : List Char :=
  match g.lead? with
  | none => g.blanks
  | some lead =>
    if lead == ['\n'] then (if g.more == [] then [' '] else g.more) else lead ++ g.more

/-- Reads a run to its end. In a line after the first, a tab to the left of column `indent` is
refused. -/
def scan (indent : Nat) : Nat → Gap → Cursor → Except Fault (Gap × Cursor)
  | 0, g, c => .ok (g, c)
  | fuel + 1, g, c =>
    match c.rest with
    | [] => .ok (g, c)
    | x :: _ =>
      if isBlank x then
        match g.lead? with
        | none => scan indent fuel { g with blanks := g.blanks ++ [x] } c.skip
        | some _ =>
          if x == '\t' && c.column < indent then .error .tabIndentation
          else scan indent fuel g c.skip
      else if isBreak x then
        match g.lead? with
        | none => scan indent fuel ⟨[], some c.breakText, []⟩ c.skipBreak
        | some _ => scan indent fuel { g with more := g.more ++ c.breakText } c.skipBreak
      else .ok (g, c)

end Gap

/-! ## Plain scalars -/

/-- A scalar that was read. -/
structure ScannedScalar where
  text : Text
  /-- The place after it. -/
  next : Cursor
  /-- Were line ends read over after its last character? -/
  endsLine : Bool

/-- Does a plain scalar end before this character? A colon ends it before a blank; in a flow
collection the separators and brackets do as well, and a question mark before a space. -/
def endsPlain (inFlow : Bool) (c : Cursor) : Bool :=
  match c.rest with
  | [] => true
  | x :: _ =>
    (x == ':' && c.blankAt 1) ||
      (inFlow &&
        (x == ',' || x == '[' || x == ']' || x == '{' || x == '}' || (x == '?' && c.spaceAt 1)))

/-- The characters of a word of a plain scalar, up to a blank or its end. -/
def scanWord (inFlow : Bool) : Nat → List Char → Cursor → List Char × Cursor
  | 0, word, c => (word.reverse, c)
  | fuel + 1, word, c =>
    match c.rest with
    | [] => (word.reverse, c)
    | x :: _ =>
      if isBlank x || isBreak x || endsPlain inFlow c then (word.reverse, c)
      else scanWord inFlow fuel (x :: word) c.skip

/-- Reads a plain scalar word by word. The words so far are `text`, and `gap` stands between them
and the next one. In a block, a line that is indented less than `indent` is not part of it. -/
def scanPlain (inFlow : Bool) (indent : Nat) :
    Nat → List Char → Gap → Cursor → Except Fault ScannedScalar
  | 0, text, gap, c => .ok ⟨Text.ofChars text, c, gap.breaksLine⟩
  | fuel + 1, text, gap, c =>
    if c.atDocumentMark || c.isOn '#' then .ok ⟨Text.ofChars text, c, gap.breaksLine⟩
    else
      let (word, c') := scanWord inFlow c.fuel [] c
      let text' := if word == [] then text else text ++ gap.folded ++ word
      let gap' := if word == [] then gap else .empty
      if !c'.blankAt 0 || c'.rest == [] then .ok ⟨Text.ofChars text', c', gap'.breaksLine⟩
      else do
        let (gap'', c'') ← Gap.scan indent c'.fuel gap' c'
        if !inFlow && c''.column < indent then .ok ⟨Text.ofChars text', c'', gap''.breaksLine⟩
        else scanPlain inFlow indent fuel text' gap'' c''

/-! ## Quoted scalars -/

/-- The value of a hexadecimal digit. -/
def hexDigit? (c : Char) : Option Nat :=
  if '0' ≤ c && c ≤ '9' then some (c.toNat - 0x30)
  else if 'a' ≤ c && c ≤ 'f' then some (c.toNat - 0x57)
  else if 'A' ≤ c && c ≤ 'F' then some (c.toNat - 0x37)
  else none

/-- The number that is written with exactly these hexadecimal digits. -/
def hexNumber? : List Char → Option Nat
  | [] => some 0
  | cs => cs.foldlM (fun n c => (hexDigit? c).map (n * 16 + ·)) 0

/-- What an escape of one letter stands for. -/
def simpleEscape? (c : Char) : Option Char :=
  match c with
  | '0' => some '\x00'
  | 'a' => some '\x07'
  | 'b' => some '\x08'
  | 't' => some '\t'
  | '\t' => some '\t'
  | 'n' => some '\n'
  | 'v' => some '\x0b'
  | 'f' => some '\x0c'
  | 'r' => some '\r'
  | 'e' => some '\x1b'
  | ' ' => some ' '
  | '"' => some '"'
  | '\'' => some '\''
  | '\\' => some '\\'
  | 'N' => some '\u0085'
  | '_' => some '\u00a0'
  | 'L' => some '\u2028'
  | 'P' => some '\u2029'
  | _ => none

/-- The number of hexadecimal digits that an escape letter asks for. -/
def escapeDigits? (c : Char) : Option Nat :=
  match c with
  | 'x' => some 2
  | 'u' => some 4
  | 'U' => some 8
  | _ => none

/-- The character of the escape at `c`, which is on the backslash, and the place after it. -/
def scanEscape (c : Cursor) : Except Fault (Char × Cursor) :=
  match c.rest.drop 1 with
  | [] => .error .escape
  | x :: digits =>
    match simpleEscape? x with
    | some y => .ok (y, c.advance 2)
    | none =>
      match escapeDigits? x with
      | none => .error .escape
      | some n =>
        if digits.length < n then .error .escape
        else
          match hexNumber? (digits.take n) with
          | some code =>
            if code.isValidChar then .ok (Char.ofNat code, c.advance (n + 2)) else .error .escape
          | none => .error .escape

/-- Reads the inside of a quoted scalar, with its closing quote. `text` is what was read, in
reverse. -/
def scanQuoted (single : Bool) : Nat → List Char → Cursor → Except Fault (List Char × Cursor)
  | 0, _, _ => .error .unclosedQuote
  | fuel + 1, text, c =>
    if c.atDocumentMark then .error .unclosedQuote
    else
      match c.rest with
      | [] => .error .unclosedQuote
      | x :: _ =>
        if isBlank x || isBreak x then do
          let (gap, c') ← Gap.scan 0 c.fuel .empty c
          scanQuoted single fuel (gap.folded.reverse ++ text) c'
        else if single then
          if x == '\'' then
            if c.skip.isOn '\'' then scanQuoted single fuel ('\'' :: text) (c.advance 2)
            else .ok (text.reverse, c.skip)
          else scanQuoted single fuel (x :: text) c.skip
        else if x == '"' then .ok (text.reverse, c.skip)
        else if x == '\\' then
          if c.skip.rest != [] && c.skip.atLineEnd then do
            let c' := c.skip.skipBreak
            let (gap, c'') ← Gap.scan 0 c'.fuel ⟨[], some [], []⟩ c'
            scanQuoted single fuel (gap.more.reverse ++ text) c''
          else do
            let (y, c') ← scanEscape c
            scanQuoted single fuel (y :: text) c'
        else scanQuoted single fuel (x :: text) c.skip

/-! ## Block scalars -/

/-- What happens to the line ends at the end of a block scalar. -/
inductive Chomping where
  /-- All are left out. -/
  | strip
  /-- The first is kept. -/
  | clip
  /-- All are kept. -/
  | keep
deriving DecidableEq

/-- The chomping that an indicator asks for. -/
def chomping? (c : Char) : Option Chomping :=
  match c with
  | '+' => some .keep
  | '-' => some .strip
  | _ => none

/-- The digit of an indentation indicator. -/
def indentDigit? (c : Char) : Option Nat :=
  if '0' ≤ c && c ≤ '9' then some (c.toNat - 0x30) else none

/-- Reads the indentation indicator, if there is one: it must not be zero. -/
def scanIncrement (c : Cursor) : Except Fault (Nat × Cursor) :=
  match c.peek?.bind indentDigit? with
  | some 0 => .error .blockHeader
  | some n => .ok (n, c.skip)
  | none => .ok (0, c)

/-- Reads the indicators of a header, in either order. An increment of 0 stands for none. -/
def scanIndicators (c : Cursor) : Except Fault (Chomping × Nat × Cursor) :=
  match c.peek?.bind chomping? with
  | some chomping => do
    let (n, c') ← scanIncrement c.skip
    return (chomping, n, c')
  | none => do
    let (n, c') ← scanIncrement c
    if n == 0 then return (.clip, 0, c')
    match c'.peek?.bind chomping? with
    | some chomping => return (chomping, n, c'.skip)
    | none => return (.clip, n, c')

/-- Reads empty lines and the indentation of the line after them. `indent` is 0 as long as it is
not known; then the whole indentation is read, and `widest` is the widest one so far. -/
def scanEmptyLines (indent : Nat) :
    Nat → Nat → List Char → Cursor → Except Fault (Nat × List Char × Cursor)
  | 0, widest, breaks, c => .ok (widest, breaks, c)
  | fuel + 1, widest, breaks, c =>
    let spaces := (c.rest.takeWhile (· == ' ')).length
    let c' := c.advance (if indent == 0 then spaces else min spaces (indent - c.column))
    let widest' := max widest c'.column
    if (indent == 0 || c'.column < indent) && c'.isOn '\t' then .error .tabIndentation
    else if c'.rest != [] && c'.atLineEnd then
      scanEmptyLines indent fuel widest' (breaks ++ c'.breakText) c'.skipBreak
    else .ok (widest', breaks, c')

/-- Reads the lines of a block scalar. `lead` is the end of the line before, `breaks` are those of
the empty lines after it; `spaced` says whether the line before starts with a blank. -/
def scanBlockLines (literal : Bool) (indent : Nat) :
    Nat → List Char → List Char → List Char → Bool → Cursor →
      Except Fault (List Char × List Char × List Char × Cursor)
  | 0, text, lead, breaks, _, c => .ok (text, lead, breaks, c)
  | fuel + 1, text, lead, breaks, spaced, c =>
    if c.column != indent || c.rest == [] then .ok (text, lead, breaks, c)
    else do
      let blankStart := (c.peek?.map isBlank).getD false
      let joint :=
        if !literal && !spaced && !blankStart && lead == ['\n'] then
          (if breaks == [] then [' '] else [])
        else lead
      let line := c.rest.takeWhile fun x => !isBreak x
      let c' := c.advance line.length
      let (_, breaks', c'') ← scanEmptyLines indent c'.fuel 0 [] c'.skipBreak
      scanBlockLines literal indent fuel (text ++ joint ++ breaks ++ line) c'.breakText breaks'
        blankStart c''

/-- Reads a block scalar, whose indicator is at `c`. `parent?` is the indentation of the collection
around it. -/
def scanBlock (literal : Bool) (parent? : Option Nat) (c : Cursor) :
    Except Fault (Text × Cursor) := do
  let (chomping, increment, c) ← scanIndicators c.skip
  let c := c.skipWhile isBlank
  let c := if c.isOn '#' then c.skipWhile fun x => !isBreak x else c
  if !c.atLineEnd then .error .blockHeader
  else
    let c := c.skipBreak
    let stated := if increment == 0 then 0 else parent?.getD 0 + increment
    let (widest, breaks, c) ← scanEmptyLines stated c.fuel 0 [] c
    let least := max 1 ((parent?.map (· + 1)).getD 0)
    let indent := if stated == 0 then max widest least else stated
    let (text, lead, breaks, c) ← scanBlockLines literal indent c.fuel [] [] breaks false c
    let tail :=
      match chomping with
      | .strip => []
      | .clip => lead
      | .keep => lead ++ breaks
    return (Text.ofChars (text ++ tail), c)

end Yaml
end StateForge
