import StateForge.Yaml.Property
import StateForge.Yaml.Stream

/-!
# The tokens of a YAML text

`Token.scan` cuts a text into tokens. Two things make this more than a matter of looking at the next
character.

* The indentation of a line opens and closes block collections, so the scanner keeps the columns of
  the collections that are open.
* A key shows only at the colon behind it. A token that may turn out to be one is kept as a
  *candidate*, and when the colon comes the tokens that announce the key are put in before it.

## When the text is at fault

Reading stops at the first fault, but a document that is complete before it is still accepted:
a token counts as long as two more can be read after it, and as long as it is decided whether the
token is a key. `Token.scan` gives exactly the tokens that count; only a list that ends with
`streamEnd` reaches to the end of the text.
-/

set_option autoImplicit false

namespace StateForge
namespace Yaml

/-- A token that is a key if a colon follows on its line. -/
structure KeyCandidate where
  /-- The number of tokens before it. -/
  position : Nat
  index : Nat
  line : Nat
  column : Nat
  /-- Does its column allow for nothing but a key? -/
  required : Bool

/-- The state of the scanner. -/
structure ScanState where
  cursor : Cursor
  /-- The columns of the open block collections, innermost first. -/
  indents : List Nat := []
  /-- The candidate in the innermost flow collection, or in the block around all. -/
  candidate? : Option KeyCandidate := none
  /-- The candidates in the collections around it: one for each open flow collection. -/
  outer : List (Option KeyCandidate) := []
  /-- May a key start here? -/
  keyAllowed : Bool := true
  /-- The tokens so far, last first. -/
  tokens : List Token := []
  /-- The number of tokens so far. -/
  count : Nat := 0

namespace KeyCandidate

/-- A key has to be followed by its colon on the same line and within 1024 characters. -/
def isLive (k : KeyCandidate) (c : Cursor) : Bool :=
  k.line == c.line && c.index ≤ k.index + 1024

end KeyCandidate

namespace ScanState

/-- Is the scanner inside a flow collection? -/
def inFlow (s : ScanState) : Bool :=
  !s.outer.isEmpty

/-- The deepest nesting of collections that is accepted. -/
def maxDepth : Nat := 10000

/-! ## Putting tokens out -/

/-- Puts out a token that starts in the given line. -/
def emitAt (s : ScanState) (line : Nat) (lexeme : Lexeme) : ScanState :=
  { s with tokens := ⟨line, lexeme⟩ :: s.tokens, count := s.count + 1 }

/-- Puts out a token that starts at the cursor. -/
def emit (s : ScanState) (lexeme : Lexeme) : ScanState :=
  s.emitAt s.cursor.line lexeme

/-- Puts a token in before the one with the given number. -/
def insert (s : ScanState) (position line : Nat) (lexeme : Lexeme) : ScanState :=
  let later := s.count - position
  { s with
    tokens := s.tokens.take later ++ ⟨line, lexeme⟩ :: s.tokens.drop later
    count := s.count + 1 }

/-- Puts out a token of `n` characters. -/
def emitOver (s : ScanState) (n : Nat) (lexeme : Lexeme) : ScanState :=
  { s.emit lexeme with cursor := s.cursor.advance n }

/-! ## Indentation -/

/-- Opens a block collection at `column`, if it is deeper than the ones that are open. The token
that opens it goes before the one numbered `position`, which starts in `line`. -/
def openBlock (s : ScanState) (column position line : Nat) (lexeme : Lexeme) :
    Except Fault ScanState :=
  if s.inFlow || s.indents.head?.any (decide <| column ≤ ·) then .ok s
  else if s.indents.length ≥ maxDepth then .error .depth
  else .ok { s.insert position line lexeme with indents := column :: s.indents }

/-- Closes the block collections that are deeper than `column`, given the indentations. -/
def closeDeeper (s : ScanState) (column : Nat) : List Nat → ScanState
  | [] => { s with indents := [] }
  | i :: rest =>
    if column < i then closeDeeper (s.emit .blockEnd) column rest
    else { s with indents := i :: rest }

/-- Closes the block collections that the column of the cursor is to the left of. -/
def closeBlocks (s : ScanState) : ScanState :=
  if s.inFlow then s else s.closeDeeper s.cursor.column s.indents

/-- Closes all block collections. -/
def closeAllBlocks (s : ScanState) : ScanState :=
  if s.inFlow then s
  else s.indents.foldl (fun s _ => s.emit .blockEnd) { s with indents := [] }

/-! ## Candidates for keys -/

/-- Forgets the candidate: it is no key. -/
def dropCandidate (s : ScanState) : Except Fault ScanState :=
  match s.candidate? with
  | some k => if k.required then .error .missingColon else .ok { s with candidate? := none }
  | none => .ok s

/-- Makes the token that comes next a candidate, if a key may start here. -/
def saveCandidate (s : ScanState) : Except Fault ScanState :=
  if s.keyAllowed then do
    let s ← s.dropCandidate
    let c := s.cursor
    let required := !s.inFlow && s.indents.head? == some c.column
    return { s with candidate? := some ⟨s.count, c.index, c.line, c.column, required⟩ }
  else .ok s

/-- The candidate, if a colon at the cursor makes it a key. -/
def liveCandidate? (s : ScanState) : Except Fault (Option KeyCandidate) :=
  match s.candidate? with
  | none => .ok none
  | some k =>
    if k.isLive s.cursor then .ok (some k)
    else if k.required then .error .missingColon
    else .ok none

/-! ## Blanks and comments -/

/-- Moves over blanks and line ends to the next comment. -/
def skipToComment : Nat → Cursor → Cursor
  | 0, c => c
  | fuel + 1, c =>
    if c.isOn '#' then c
    else skipToComment fuel (if c.atLineEnd then c.skipBreak else c.skip)

/-- Moves over a comment, and over those in the lines after it as long as there is nothing but
blanks between, and not too much of that. -/
def skipComments : Nat → Cursor → Cursor
  | 0, c => c
  | fuel + 1, c =>
    let c := c.skipWhile fun x => !isBreak x
    let between := c.rest.takeWhile fun x => isBlank x || x == '\n' || x == '\r'
    if 0 < between.length && between.length < 512 &&
        (c.rest.drop between.length).head? == some '#' then
      skipComments fuel (skipToComment between.length c)
    else c

/-- Moves to the next token. A new line may start a key, unless the scanner is in a flow
collection; tabs are only blanks where no key may start. -/
def toNextToken : Nat → ScanState → ScanState
  | 0, s => s
  | fuel + 1, s =>
    let c := s.cursor.skipWhile fun x => x == ' ' || ((s.inFlow || !s.keyAllowed) && x == '\t')
    let c := if c.isOn '#' then skipComments c.fuel c else c
    if c.rest != [] && c.atLineEnd then
      toNextToken fuel
        { s with cursor := c.skipBreak, keyAllowed := s.keyAllowed || !s.inFlow }
    else { s with cursor := c }

/-- Moves over a comment that follows a token on its line. -/
def skipLineComment (s : ScanState) : ScanState :=
  let blanks := (s.cursor.rest.takeWhile isBlank).length
  let c := s.cursor.advance blanks
  if blanks < 512 && c.isOn '#' then { s with cursor := c.skipWhile fun x => !isBreak x } else s

/-! ## The tokens one by one -/

/-- The end of the text, which closes everything. -/
def fetchStreamEnd (s : ScanState) : Except Fault ScanState := do
  let c := s.cursor
  let c := if c.column == 0 then c else { c with line := c.line + 1, column := 0 }
  let s ← { s with cursor := c }.closeAllBlocks.dropCandidate
  return { s with keyAllowed := false }.emit .streamEnd

/-- A directive. -/
def fetchDirective (s : ScanState) : Except Fault ScanState := do
  let s ← s.closeAllBlocks.dropCandidate
  let (lexeme, c) ← scanDirective s.cursor
  return { s.emit lexeme with cursor := c, keyAllowed := false }

/-- The line that starts or ends a document. -/
def fetchDocumentMark (s : ScanState) (lexeme : Lexeme) : Except Fault ScanState := do
  let s ← s.closeAllBlocks.dropCandidate
  return { s.emitOver 3 lexeme with keyAllowed := false }

/-- The opening bracket of a flow collection. -/
def fetchFlowStart (s : ScanState) (lexeme : Lexeme) : Except Fault ScanState := do
  let s ← s.saveCandidate
  if s.outer.length ≥ maxDepth then .error .depth
  else
    return { s.emitOver 1 lexeme with
      candidate? := none, outer := s.candidate? :: s.outer, keyAllowed := true }

/-- The closing bracket of a flow collection. -/
def fetchFlowEnd (s : ScanState) (lexeme : Lexeme) : Except Fault ScanState := do
  let s ← s.dropCandidate
  let s :=
    match s.outer with
    | [] => s
    | k? :: outer => { s with candidate? := k?, outer }
  return { s.emitOver 1 lexeme with keyAllowed := false }

/-- The comma in a flow collection. -/
def fetchFlowEntry (s : ScanState) : Except Fault ScanState := do
  let s ← s.dropCandidate
  return { s.emitOver 1 .flowEntry with keyAllowed := true }

/-- The hyphen before an item of a block sequence. -/
def fetchBlockEntry (s : ScanState) : Except Fault ScanState := do
  let s ←
    if s.inFlow then pure s
    else if !s.keyAllowed then .error .misplacedIndicator
    else s.openBlock s.cursor.column s.count s.cursor.line .blockSequenceStart
  let s ← s.dropCandidate
  return { s.emitOver 1 .blockEntry with keyAllowed := true }

/-- The question mark before a key. -/
def fetchKey (s : ScanState) : Except Fault ScanState := do
  let s ←
    if s.inFlow then pure s
    else if !s.keyAllowed then .error .misplacedIndicator
    else s.openBlock s.cursor.column s.count s.cursor.line .blockMappingStart
  let s ← s.dropCandidate
  return { s.emitOver 1 .key with keyAllowed := !s.inFlow }

/-- The colon before a value. If there is a candidate, it is now known to be a key. -/
def fetchValue (s : ScanState) : Except Fault ScanState := do
  match ← s.liveCandidate? with
  | some k =>
    let s ← (s.insert k.position k.line .key).openBlock k.column k.position k.line
      .blockMappingStart
    return { s.emitOver 1 .value with candidate? := none, keyAllowed := false }
  | none =>
    let s := { s with candidate? := none }
    let s ←
      if s.inFlow then pure s
      else if !s.keyAllowed then .error .misplacedIndicator
      else s.openBlock s.cursor.column s.count s.cursor.line .blockMappingStart
    return { s.emitOver 1 .value with keyAllowed := !s.inFlow }

/-- An anchor or an alias. -/
def fetchAnchor (s : ScanState) (make : Text → Lexeme) : Except Fault ScanState := do
  let s ← s.saveCandidate
  let (name, c) ← scanAnchor s.cursor
  return { s.emit (make name) with cursor := c, keyAllowed := false }

/-- A tag. -/
def fetchTag (s : ScanState) : Except Fault ScanState := do
  let s ← s.saveCandidate
  let (lexeme, c) ← scanTag s.cursor
  return { s.emit lexeme with cursor := c, keyAllowed := false }

/-- A block scalar. -/
def fetchBlockScalar (s : ScanState) (literal : Bool) : Except Fault ScanState := do
  let s ← s.dropCandidate
  let (text, c) ← scanBlock literal s.indents.head? s.cursor
  return { s.emit (.scalar text false) with cursor := c, keyAllowed := true }

/-- A quoted scalar. -/
def fetchQuotedScalar (s : ScanState) (single : Bool) : Except Fault ScanState := do
  let s ← s.saveCandidate
  let (text, c) ← scanQuoted single s.cursor.fuel [] s.cursor.skip
  return { s.emit (.scalar (Text.ofChars text) false) with cursor := c, keyAllowed := false }

/-- A plain scalar, and whether the scanner is still on its line. -/
def fetchPlainScalar (s : ScanState) : Except Fault (ScanState × Bool) := do
  let s ← s.saveCandidate
  let indent := (s.indents.head?.map (· + 1)).getD 0
  let scanned ← scanPlain s.inFlow indent s.cursor.fuel [] .empty s.cursor
  return ({ s.emit (.scalar scanned.text true) with
    cursor := scanned.next, keyAllowed := scanned.endsLine }, !scanned.endsLine)

/-- May a plain scalar start here? Indicators start none, but some do when no blank follows. -/
def startsPlain (s : ScanState) (x : Char) : Bool :=
  let c := s.cursor
  if x == '-' then !(c.skip.peek?.map isBlank).getD false
  else if x == '?' || x == ':' then !s.inFlow && !c.blankAt 1
  else
    !(c.blankAt 0 || x == ',' || x == '[' || x == ']' || x == '{' || x == '}' || x == '#' ||
      x == '&' || x == '*' || x == '!' || x == '|' || x == '>' || x == '\'' || x == '"' ||
      x == '%' || x == '@' || x == '`')

/-- The token that starts with `x` at the cursor, and the comment after it on its line. -/
def fetchFrom (s : ScanState) (x : Char) : Except Fault ScanState :=
  let c := s.cursor
  if x == '[' then skipLineComment <$> s.fetchFlowStart .flowSequenceStart
  else if x == '{' then skipLineComment <$> s.fetchFlowStart .flowMappingStart
  else if x == ']' then skipLineComment <$> s.fetchFlowEnd .flowSequenceEnd
  else if x == '}' then skipLineComment <$> s.fetchFlowEnd .flowMappingEnd
  else if x == ',' then skipLineComment <$> s.fetchFlowEntry
  else if x == '-' && c.blankAt 1 then s.fetchBlockEntry
  else if x == '?' && (s.inFlow || c.blankAt 1) then skipLineComment <$> s.fetchKey
  else if x == ':' && (s.inFlow || c.blankAt 1) then skipLineComment <$> s.fetchValue
  else if x == '*' then skipLineComment <$> s.fetchAnchor .reference
  else if x == '&' then skipLineComment <$> s.fetchAnchor .anchor
  else if x == '!' then skipLineComment <$> s.fetchTag
  else if x == '|' && !s.inFlow then s.fetchBlockScalar true
  else if x == '>' && !s.inFlow then s.fetchBlockScalar false
  else if x == '\'' then skipLineComment <$> s.fetchQuotedScalar true
  else if x == '"' then skipLineComment <$> s.fetchQuotedScalar false
  else if s.startsPlain x then do
    let (s, onLine) ← s.fetchPlainScalar
    return if onLine then s.skipLineComment else s
  else .error .unexpectedCharacter

/-- Reads one more token, and the tokens that come with it. If the text breaks off, four characters
have to be left before the token and one after it. -/
def fetch (complete : Bool) (s : ScanState) : Except Fault ScanState := do
  let s := (toNextToken s.cursor.fuel s).closeBlocks
  if !complete && s.cursor.rest.length < 4 then .error .encoding
  else
    let s ←
      match s.cursor.rest with
      | [] => s.fetchStreamEnd
      | x :: _ =>
        if x == '%' && s.cursor.column == 0 then s.fetchDirective
        else if s.cursor.atDocumentMark then
          s.fetchDocumentMark (if x == '-' then .documentStart else .documentEnd)
        else s.fetchFrom x
    if !complete && s.cursor.rest == [] then .error .encoding else return s

/-! ## All tokens -/

/-- The tokens that count when no further one can be read. -/
def settled (s : ScanState) : List Token :=
  let open? (k? : Option KeyCandidate) : Option Nat :=
    k?.bind fun k => if k.isLive s.cursor then some k.position else none
  let positions := (s.candidate? :: s.outer).filterMap open?
  s.tokens.reverse.take (positions.foldl min (s.count - 2))

/-- Reads tokens to the end of the text or to the first fault. -/
def run (complete : Bool) : Nat → ScanState → List Token
  | 0, s => s.settled
  | fuel + 1, s =>
    match s.fetch complete with
    | .error _ => s.settled
    | .ok s =>
      match s.tokens with
      | ⟨_, .streamEnd⟩ :: _ => s.tokens.reverse
      | _ => run complete fuel s

end ScanState

/-- The tokens of a text, up to the first that does not count. -/
def Token.scan (stream : CharStream) : List Token :=
  ScanState.run stream.complete (stream.chars.length + 2) { cursor := { rest := stream.chars } }

end Yaml
end StateForge
