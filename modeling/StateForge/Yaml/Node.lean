import StateForge.Yaml.Token
import StateForge.Yaml.ScalarKind

/-!
# Nodes of a YAML document

A document is a tree of scalars, sequences and mappings, in which an alias stands for the node of an
earlier anchor. An anchor may be referred to from within its own node, so aliases are kept as
references: `Graph.target?` follows them.

`Graph.ofTokens?` builds the first document of a text. It follows the grammar of tokens with one
function for each kind of node and each kind of list; a list of tokens that ends too early is refused
wherever it ends.
-/

set_option autoImplicit false

namespace StateForge
namespace Yaml

/-- A node of a document, with the line in which it starts, counted from 1. -/
inductive Node where
  /-- A scalar with its tag in short form; `tagged` if the tag is written in the text. -/
  | scalar (line : Nat) (tag : Text) (tagged : Bool) (text : Text)
  | sequence (line : Nat) (tag : Text) (items : List Node)
  | mapping (line : Nat) (tag : Text) (entries : List (Node × Node))
  /-- The alias with number `serial`, which stands for the node with number `target`. -/
  | reference (line : Nat) (name : Text) (serial target : Nat)

/-- A document: its root, and the nodes with an anchor by their numbers. -/
structure Graph where
  root : Node
  anchored : List (Nat × Node)
  /-- A bound for the number of nodes. -/
  size : Nat

namespace Node

/-- The line in which a node starts. -/
def line : Node → Nat
  | scalar line .. => line
  | sequence line .. => line
  | mapping line .. => line
  | reference line .. => line

/-- The text of a scalar or the name of an alias; nothing for a collection. -/
def text : Node → Text
  | scalar _ _ _ text => text
  | reference _ name _ _ => name
  | _ => []

/-- Are two nodes of the same form? -/
def sameForm : Node → Node → Bool
  | scalar .., scalar .. => true
  | sequence .., sequence .. => true
  | mapping .., mapping .. => true
  | reference .., reference .. => true
  | _, _ => false

end Node

/-! ## Tags -/

/-- The names that tags of the schema are written with. -/
def schemaLead : Text := "tag:yaml.org,2002:"

/-- The short form of a tag: the schema's own tags start with two exclamation marks. -/
def shortTag (tag : Text) : Text :=
  match Text.cutPrefix? schemaLead tag with
  | some name => "!!" ++ name
  | none => tag

/-- The handles that are declared in every document. -/
def standardHandles : List (Text × Text) :=
  [("!", "!"), ("!!", schemaLead)]

/-- The tag that a handle and a suffix stand for. -/
def expandTag? (handles : List (Text × Text)) (handle suffix : Text) : Option Text :=
  if handle == [] then some suffix
  else (handles.find? fun h => h.1 == handle).map fun h => h.2 ++ suffix

/-- What is written in front of a node. -/
structure NodeProperties where
  /-- The line in which the first property stands, if there is one. -/
  line? : Option Nat := none
  anchor? : Option Text := none
  /-- The tag, in full. -/
  tag? : Option Text := none

namespace NodeProperties

/-- A tag that says something: a lone exclamation mark does not. -/
def explicitTag? (p : NodeProperties) : Option Text :=
  match p.tag? with
  | some tag => if tag == Text.ofString "!" then none else some (shortTag tag)
  | none => none

/-- Is nothing written in front of the node? -/
def isEmpty (p : NodeProperties) : Bool :=
  p.anchor?.isNone && p.tag?.isNone

/-- The scalar with these properties. -/
def scalar (p : NodeProperties) (line : Nat) (text : Text) (plain : Bool) : Node :=
  let line := p.line?.getD line + 1
  match p.explicitTag? with
  | some tag => .scalar line tag true text
  | none =>
    let tag :=
      if !plain then schema.str
      else if text == Text.ofString "<<" then schema.merge
      else (ScalarKind.ofText true text).tag
    .scalar line tag false text

/-- The sequence with these properties. -/
def sequence (p : NodeProperties) (line : Nat) (items : List Node) : Node :=
  .sequence (p.line?.getD line + 1) (p.explicitTag?.getD schema.seq) items

/-- The mapping with these properties. -/
def mapping (p : NodeProperties) (line : Nat) (entries : List (Node × Node)) : Node :=
  .mapping (p.line?.getD line + 1) (p.explicitTag?.getD schema.map) entries

end NodeProperties

/-- A scalar of which nothing is written. -/
def emptyScalar (line : Nat) : Node :=
  ({} : NodeProperties).scalar line [] true

/-! ## Building nodes from tokens -/

/-- What is known while a document is built. -/
structure Composer where
  /-- The tokens that are not used yet. -/
  tokens : List Token
  handles : List (Text × Text) := standardHandles
  /-- The anchors so far, latest first, with the numbers of their nodes. -/
  anchors : List (Text × Nat) := []
  /-- The nodes with an anchor that are complete. -/
  anchored : List (Nat × Node) := []
  /-- The number of anchors and aliases so far. -/
  serial : Nat := 0

/-- A step that builds something from the next tokens. -/
abbrev Compose (α : Type) := StateT Composer (Except Fault) α

namespace Compose

/-- Refuses the tokens. -/
def fail {α : Type} (fault : Fault) : Compose α :=
  throw fault

/-- The next token. -/
def peek : Compose Token := do
  match (← get).tokens with
  | t :: _ => return t
  | [] => fail .grammar

/-- Moves over the next token. -/
def skip : Compose Unit :=
  modify fun s => { s with tokens := s.tokens.tail }

/-- The number of an anchor or alias. -/
def newSerial : Compose Nat := do
  let s ← get
  set { s with serial := s.serial + 1 }
  return s.serial

/-- Declares an anchor; from here on, aliases may refer to it. -/
def declareAnchor (anchor? : Option Text) : Compose (Option Nat) := do
  match anchor? with
  | none => return none
  | some name =>
    let n ← newSerial
    modify fun s => { s with anchors := (name, n) :: s.anchors }
    return some n

/-- Records the node of an anchor. -/
def completeAnchor (n? : Option Nat) (node : Node) : Compose Node := do
  match n? with
  | none => return node
  | some n =>
    modify fun s => { s with anchored := (n, node) :: s.anchored }
    return node

/-- The alias with the given name. -/
def aliasNode (line : Nat) (name : Text) : Compose Node := do
  match (← get).anchors.lookup name with
  | none => fail .unknownAnchor
  | some target => return .reference (line + 1) name (← newSerial) target

/-- Reads a tag, if there is one. -/
def tagProperty (p : NodeProperties) : Compose NodeProperties := do
  let t ← peek
  match t.lexeme with
  | .tag handle suffix =>
    match expandTag? (← get).handles handle suffix with
    | none => fail .tag
    | some tag =>
      skip
      return { p with line? := some (p.line?.getD t.line), tag? := some tag }
  | _ => return p

/-- Reads an anchor, if there is one. -/
def anchorProperty (p : NodeProperties) : Compose NodeProperties := do
  let t ← peek
  match t.lexeme with
  | .anchor name =>
    skip
    return { p with line? := some (p.line?.getD t.line), anchor? := some name }
  | _ => return p

/-- Reads an anchor and a tag, in either order. -/
def properties : Compose NodeProperties := do
  let p ← anchorProperty {}
  let p ← tagProperty p
  if p.anchor?.isNone then anchorProperty p else return p

/-- Where a node may stand. -/
inductive Place where
  /-- In a flow collection. -/
  | flow
  /-- An item of a block sequence, or the whole document. -/
  | block
  /-- A key or value of a block mapping, where the items of a sequence need no indentation. -/
  | mapping
deriving DecidableEq

/-- The comma before every entry of a flow collection but the first; gives the token after it. -/
def flowSeparator (t : Token) (first : Bool) : Compose Token :=
  if first then return t
  else
    match t.lexeme with
    | .flowEntry => do
      skip
      peek
    | _ => fail .grammar

mutual

/-- A node. -/
def node : Nat → Place → Compose Node
  | 0, _ => fail .depth
  | fuel + 1, place => do
    let t ← peek
    match t.lexeme with
    | .reference name =>
      skip
      aliasNode t.line name
    | _ =>
      let p ← properties
      let t ← peek
      let n? ← declareAnchor p.anchor?
      let body ← content fuel place p t
      completeAnchor n? body
termination_by structural fuel => fuel

/-- What follows the properties of a node; `t` is the token after them. -/
def content : Nat → Place → NodeProperties → Token → Compose Node
  | 0, _, _, _ => fail .depth
  | fuel + 1, place, p, t =>
    match t.lexeme, place with
    | .blockEntry, .mapping => return p.sequence t.line (← indentlessItems fuel)
    | .scalar text plain, _ => do
      skip
      return p.scalar t.line text plain
    | .flowSequenceStart, _ => do
      skip
      return p.sequence t.line (← flowItems fuel true)
    | .flowMappingStart, _ => do
      skip
      return p.mapping t.line (← flowEntries fuel true)
    | .blockSequenceStart, .block | .blockSequenceStart, .mapping => do
      skip
      return p.sequence t.line (← blockItems fuel)
    | .blockMappingStart, .block | .blockMappingStart, .mapping => do
      skip
      return p.mapping t.line (← blockEntries fuel)
    | _, _ => if p.isEmpty then fail .grammar else return p.scalar t.line [] true
termination_by structural fuel => fuel

/-- The items of a block sequence, up to its end. -/
def blockItems : Nat → Compose (List Node)
  | 0 => fail .depth
  | fuel + 1 => do
    let t ← peek
    match t.lexeme with
    | .blockEntry =>
      skip
      let next ← peek
      let item ←
        match next.lexeme with
        | .blockEntry | .blockEnd => pure (emptyScalar t.line)
        | _ => node fuel .block
      return item :: (← blockItems fuel)
    | .blockEnd =>
      skip
      return []
    | _ => fail .grammar
termination_by structural fuel => fuel

/-- The items of a block sequence that is not indented: it ends where no item follows. -/
def indentlessItems : Nat → Compose (List Node)
  | 0 => fail .depth
  | fuel + 1 => do
    let t ← peek
    match t.lexeme with
    | .blockEntry =>
      skip
      let next ← peek
      let item ←
        match next.lexeme with
        | .blockEntry | .key | .value | .blockEnd => pure (emptyScalar t.line)
        | _ => node fuel .block
      return item :: (← indentlessItems fuel)
    | _ => return []
termination_by structural fuel => fuel

/-- The entries of a block mapping, up to its end. -/
def blockEntries : Nat → Compose (List (Node × Node))
  | 0 => fail .depth
  | fuel + 1 => do
    let t ← peek
    match t.lexeme with
    | .key =>
      skip
      let next ← peek
      let key ←
        match next.lexeme with
        | .key | .value | .blockEnd => pure (emptyScalar t.line)
        | _ => node fuel .mapping
      let val ← blockValue fuel
      return (key, val) :: (← blockEntries fuel)
    | .blockEnd =>
      skip
      return []
    | _ => fail .grammar
termination_by structural fuel => fuel

/-- The value that belongs to a key of a block mapping. -/
def blockValue : Nat → Compose Node
  | 0 => fail .depth
  | fuel + 1 => do
    let t ← peek
    match t.lexeme with
    | .value =>
      skip
      let next ← peek
      match next.lexeme with
      | .key | .value | .blockEnd => return emptyScalar t.line
      | _ => node fuel .mapping
    | _ => return emptyScalar t.line
termination_by structural fuel => fuel

/-- The items of a flow sequence, up to its end. -/
def flowItems : Nat → Bool → Compose (List Node)
  | 0, _ => fail .depth
  | fuel + 1, first => do
    let t ← peek
    match t.lexeme with
    | .flowSequenceEnd =>
      skip
      return []
    | _ =>
      let t ← flowSeparator t first
      match t.lexeme with
      | .flowSequenceEnd =>
        skip
        return []
      | .key =>
        skip
        let entry ← pairEntry fuel
        return ({} : NodeProperties).mapping t.line [entry] :: (← flowItems fuel false)
      | _ =>
        let item ← node fuel .flow
        return item :: (← flowItems fuel false)
termination_by structural fuel => fuel

/-- A single entry of a mapping that stands as an item of a flow sequence. -/
def pairEntry : Nat → Compose (Node × Node)
  | 0 => fail .depth
  | fuel + 1 => do
    let t ← peek
    let key ←
      match t.lexeme with
      | .value | .flowEntry | .flowSequenceEnd =>
        skip
        pure (emptyScalar t.line)
      | _ => node fuel .flow
    let t ← peek
    match t.lexeme with
    | .value =>
      skip
      let next ← peek
      match next.lexeme with
      | .flowEntry | .flowSequenceEnd => return (key, emptyScalar next.line)
      | _ => return (key, ← node fuel .flow)
    | _ => return (key, emptyScalar t.line)
termination_by structural fuel => fuel

/-- The entries of a flow mapping, up to its end. -/
def flowEntries : Nat → Bool → Compose (List (Node × Node))
  | 0, _ => fail .depth
  | fuel + 1, first => do
    let t ← peek
    match t.lexeme with
    | .flowMappingEnd =>
      skip
      return []
    | _ =>
      let t ← flowSeparator t first
      match t.lexeme with
      | .flowMappingEnd =>
        skip
        return []
      | .key =>
        skip
        let next ← peek
        let key ←
          match next.lexeme with
          | .value | .flowEntry | .flowMappingEnd => pure (emptyScalar next.line)
          | _ => node fuel .flow
        let val ← flowValue fuel
        return (key, val) :: (← flowEntries fuel false)
      | _ =>
        let key ← node fuel .flow
        let next ← peek
        return (key, emptyScalar next.line) :: (← flowEntries fuel false)
termination_by structural fuel => fuel

/-- The value that belongs to a key of a flow mapping. -/
def flowValue : Nat → Compose Node
  | 0 => fail .depth
  | fuel + 1 => do
    let t ← peek
    match t.lexeme with
    | .value =>
      skip
      let next ← peek
      match next.lexeme with
      | .flowEntry | .flowMappingEnd => return emptyScalar next.line
      | _ => node fuel .flow
    | _ => return emptyScalar t.line
termination_by structural fuel => fuel

end

/-! ## Documents -/

/-- Reads the directives before a document: at most one version, which has to be 1.1, and tag
handles, each at most once. -/
def directives : Nat → Bool → List (Text × Text) → Compose (List (Text × Text))
  | 0, _, _ => fail .depth
  | fuel + 1, versioned, declared => do
    let t ← peek
    match t.lexeme with
    | .versionDirective major minor =>
      if versioned then fail .directive
      else if major != 1 || minor != 1 then fail .version
      else
        skip
        directives fuel true declared
    | .tagDirective handle lead =>
      if (declared.lookup handle).isSome then fail .directive
      else
        skip
        directives fuel versioned (declared ++ [(handle, lead)])
    | _ => return declared

/-- The root of a document that starts with a line of its own. -/
def explicitRoot (fuel : Nat) : Compose Node := do
  let t ← peek
  match t.lexeme with
  | .versionDirective .. | .tagDirective .. | .documentStart | .documentEnd | .streamEnd =>
    return emptyScalar t.line
  | _ => node fuel .block

/-- The root of the first document, if there is one. The token after it has to be there too. -/
def document (fuel : Nat) : Compose (Option Node) := do
  let t ← peek
  match t.lexeme with
  | .streamEnd => return none
  | .versionDirective .. | .tagDirective .. | .documentStart =>
    let declared ← directives fuel false []
    modify fun s =>
      { s with
        handles := declared ++ standardHandles.filter fun h => (declared.lookup h.1).isNone }
    let t ← peek
    match t.lexeme with
    | .documentStart =>
      skip
      let root ← explicitRoot fuel
      let _ ← peek
      return some root
    | _ => fail .grammar
  | _ =>
    let root ← node fuel .block
    let _ ← peek
    return some root

end Compose

namespace Graph

/-- The first document of a list of tokens, if there is one. -/
def ofTokens? (tokens : List Token) : Except Fault (Option Graph) := do
  let (root?, s) ← (Compose.document (4 * tokens.length + 8)).run { tokens }
  return root?.map fun root => ⟨root, s.anchored, tokens.length⟩

/-- The node that an anchor number stands for. -/
def target? (g : Graph) (n : Nat) : Option Node :=
  g.anchored.lookup n

end Graph

end Yaml
end StateForge
