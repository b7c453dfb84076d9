import StateForge.Document.Basic
import StateForge.Yaml.Base64
import StateForge.Yaml.Node
import StateForge.Yaml.TokenStream

/-!
# Documents in YAML

The nodes of a YAML text are matched with the fields of a document. A node of the wrong form does
not end the reading: it is noted as a *complaint*, and all complaints are reported together. Faults
that leave no meaning to the text at all end it at once.

## What is here

* `Decode`, the steps of reading: they note complaints, count the nodes that they visit, and may
  fail.
* `Decode.record`, the rules that all mappings share: keys are texts, no key comes twice, unknown
  keys are skipped, and `<<` merges other mappings for the keys that are not given.
* `Yaml.document`, which reads a whole text.

## Negations without quotes

A predicate that starts with an exclamation mark is a tag to YAML when it is not quoted.
`TransitionDocument.restoreTag` puts such a tag back in front of the text.
-/

set_option autoImplicit false

namespace StateForge
namespace Yaml

/-! ## Complaints -/

/-- A part of a document that cannot be used, with the line it is in. -/
inductive Complaint where
  /-- A value of the wrong form for `type`. -/
  | mismatch (line : Nat) (tag text type : Text)
  /-- A key that was given before, in line `first`. -/
  | duplicateKey (line : Nat) (key : Text) (first : Nat)
  /-- Two keys that are written differently set the same field. -/
  | fieldTwice (line : Nat) (field type : Text)
deriving DecidableEq

namespace Complaint

/-- The beginning of a text, which is cut if it has more than ten bytes. -/
def excerpt (s : Text) : Text :=
  if s.length > 10 then s.take 7 ++ "..." else s

/-- The wording of a complaint. -/
def message : Complaint → Text
  | mismatch line tag text type =>
    let shown : Text :=
      if tag == schema.seq || tag == schema.map then text else " `" ++ excerpt text ++ "`"
    "line " ++ Text.decimal line ++ ": cannot unmarshal " ++ tag ++ shown ++ " into " ++ type
  | duplicateKey line key first =>
    "line " ++ Text.decimal line ++ ": mapping key " ++ key.quoted ++ " already defined at line " ++
      Text.decimal first
  | fieldTwice line field type =>
    "line " ++ Text.decimal line ++ ": field " ++ field ++ " already set in type " ++ type

/-- A line of the report on a document. -/
def reportLine (c : Complaint) : Text :=
  "\n  " ++ c.message

/-- The wording of a list of complaints. -/
def report (complaints : List Complaint) : Text :=
  "yaml: unmarshal errors:" ++ complaints.flatMap reportLine

end Complaint

/-! ## Steps of reading -/

/-- What reading has come across so far. -/
structure Tally where
  /-- The complaints, last first. -/
  complaints : List Complaint := []
  /-- The number of nodes that were visited. -/
  visits : Nat := 0
  /-- The number of them that were visited through an alias. -/
  aliasVisits : Nat := 0

/-- Where reading is. -/
structure Scope where
  graph : Graph
  /-- The aliases that are being followed, by their numbers. -/
  active : List Nat := []

/-- A step of reading. -/
abbrev Decode (α : Type) := StateT Tally (Except Fault) α

namespace Decode

/-- Notes a complaint. -/
def complain (c : Complaint) : Decode Unit :=
  modify fun t => { t with complaints := c :: t.complaints }

/-- The share of visits through aliases that is accepted, in hundredths of a percent: 99 percent up
to 400,000 visits, 10 percent from 4,000,000 on, and evenly falling between. -/
def aliasShare (visits : Nat) : Nat :=
  if visits ≤ 400000 then 9900
  else if visits ≥ 4000000 then 1000
  else 9900 - 8900 * (visits - 400000) / 3600000

/-- Counts a visit. A document that consists of little but aliases is refused. -/
def visit (scope : Scope) : Decode Unit := do
  let t ← get
  let visits := t.visits + 1
  let aliasVisits := if scope.active == [] then t.aliasVisits else t.aliasVisits + 1
  set { t with visits, aliasVisits }
  if aliasVisits > 100 && visits > 1000 && aliasVisits * 10000 > aliasShare visits * visits then
    throw .excessiveAliasing

/-- Visits a node, and the node that it stands for if it is an alias. -/
def follow (scope : Scope) (n : Node) : Decode (Scope × Node) := do
  visit scope
  match n with
  | .reference _ _ serial target =>
    if serial ∈ scope.active then throw .selfReference
    else
      match scope.graph.target? target with
      | some n' =>
        let scope := { scope with active := serial :: scope.active }
        visit scope
        return (scope, n')
      | none => throw .unknownAnchor
  | _ => return (scope, n)

/-- Complains of each key that repeats an earlier one: by key, and by repetition. -/
def checkKeys : List Node → Decode Unit
  | [] => return
  | key :: rest => do
    for other in rest do
      if key.sameForm other && key.text == other.text then
        complain (.duplicateKey other.line other.text key.line)
    checkKeys rest

/-- Are there no two equal keys? Complaints are noted. -/
def distinctKeys (entries : List (Node × Node)) : Decode Bool := do
  let before := (← get).complaints.length
  checkKeys (entries.map Prod.fst)
  return (← get).complaints.length == before

/-- Complains of a node that is not an alias, for a value of the given type. A scalar that is null
is no reason to complain. -/
def mismatch (type : Text) (n : Node) : Decode Unit := do
  match n with
  | .scalar line tag _ text =>
    match ← resolve tag text with
    | .null => return
    | .value _ =>
      if tag == schema.binary && (Base64.decode? text).isNone then throw .base64
      complain (.mismatch line tag text type)
  | .sequence line tag _ => complain (.mismatch line tag [] type)
  | .mapping line tag entries =>
    if ← distinctKeys entries then complain (.mismatch line tag [] type)
  | .reference .. => return

/-- Reads a text; nothing if the node is null or of the wrong form. -/
def text? (scope : Scope) (n : Node) : Decode (Option Text) := do
  let (_, n) ← follow scope n
  match n with
  | .scalar _ tag _ text =>
    if tag == schema.binary then
      match Base64.decode? text with
      | some bytes => return some bytes
      | none => throw .base64
    else
      match ← resolve tag text with
      | .null => return none
      | .value _ => return some text
  | n =>
    mismatch "string" n
    return none

/-- Reads a text into a field that has a value already. -/
def text (scope : Scope) (n : Node) (old : Text) : Decode Text := do
  return (← text? scope n).getD old

/-- Reads a list. Items that give nothing are left out. -/
def list {α : Type} (type : Text) (item : Scope → Node → Decode (Option α)) (scope : Scope)
    (n : Node) : Decode (List α) := do
  let (scope, n) ← follow scope n
  match n with
  | .sequence _ _ items =>
    let values ← items.mapM (item scope)
    return values.filterMap id
  | n =>
    mismatch type n
    return []

/-! ## Mappings -/

/-- The fields of a record, each with the way to read it into the record. -/
abbrev Fields (α : Type) := List (Text × (Scope → Node → α → Decode α))

/-- Is this the key that merges? -/
def isMergeKey : Node → Bool
  | .scalar _ tag _ text => text == Text.ofString "<<" && tag == schema.merge
  | _ => false

/-- How far the entries of a mapping have been read into a record. -/
structure Progress (α : Type) where
  /-- The keys that are set already, if this mapping is merged into another one. -/
  given? : Option (List Text)
  /-- The fields that this mapping has set. -/
  done : List Text
  value : α

/-- Reads an entry of a mapping into a record. -/
def entry {α : Type} (type : Text) (fields : Fields α) (scope : Scope) (p : Progress α)
    (pair : Node × Node) : Decode (Progress α) := do
  if isMergeKey pair.1 then return p
  else
    match ← text? scope pair.1 with
    | none => return p
    | some name =>
      if p.given?.any (·.contains name) then return p
      else
        let given? := p.given?.map (name :: ·)
        match fields.lookup name with
        | none => return ⟨given?, p.done, p.value⟩
        | some read =>
          if p.done.contains name then
            complain (.fieldTwice pair.1.line name type)
            return ⟨given?, p.done, p.value⟩
          else return ⟨given?, name :: p.done, ← read scope pair.2 p.value⟩

/-- Reads the entries of a mapping into a record. What is given after it is returned along with the
record. -/
def entries {α : Type} (type : Text) (fields : Fields α) (scope : Scope)
    (given? : Option (List Text)) (pairs : List (Node × Node)) (old : α) :
    Decode (α × Option (List Text)) := do
  let p ← pairs.foldlM (entry type fields scope) ⟨given?, [], old⟩
  return (p.value, p.given?)

/-- The text of a key that is a scalar; other keys are left out without a complaint. -/
def keyText? (scope : Scope) (key : Node) : Decode (Option Text) := do
  let (_, n) ← follow scope key
  match n with
  | .scalar .. => if isMergeKey n then return none else text? { scope with active := [] } n
  | _ => return none

/-- The keys of a mapping, as far as they are texts. -/
def keyTexts (scope : Scope) (entries : List (Node × Node)) : Decode (List Text) := do
  return (← (entries.map Prod.fst).mapM (keyText? scope)).filterMap id

/-- The keys that mappings merged into this one cannot set: those that are given already, if it is
merged itself, and otherwise its own. -/
def takenKeys (scope : Scope) (entries : List (Node × Node)) :
    Option (List Text) → Decode (List Text)
  | some given => return given
  | none => keyTexts scope entries

/-- Is this a mapping, or an alias of one? -/
def isMapping (scope : Scope) : Node → Bool
  | .mapping .. => true
  | .reference _ _ _ target =>
    match scope.graph.target? target with
    | some (.mapping ..) => true
    | _ => false
  | _ => false

/-- The mappings that a merge key refers to: one, or a list of them. -/
def mergeOperands (scope : Scope) (n : Node) : Decode (List Node) :=
  match n with
  | .sequence _ _ items =>
    if items.all (isMapping scope) then return items else throw .mergeOperand
  | n => if isMapping scope n then return [n] else throw .mergeOperand

/-- Reads a record. `given?` are the keys that are set already, if the record is merged into another
one; what is given after it is returned along with the record. The record is `none` if the node is
null or of the wrong form. -/
def record {α : Type} (type : Text) (fields : Fields α) :
    Nat → Scope → Option (List Text) → Node → α → Decode (Option α × Option (List Text))
  | 0, _, _, _, _ => throw .selfReference
  | fuel + 1, scope, given?, n, old => do
    let (scope, n) ← follow scope n
    match n with
    | .mapping _ _ pairs =>
      if ← distinctKeys pairs then
        let (new, given?) ← entries type fields scope given? pairs old
        match (pairs.filter fun pair => isMergeKey pair.1).getLast? with
        | none => return (some new, given?)
        | some (_, operand) =>
          let given ← takenKeys scope pairs given?
          let operands ← mergeOperands scope operand
          let (new, given) ← operands.foldlM
            (fun (acc : α × List Text) m => do
              let (merged?, given'?) ← record type fields fuel scope (some acc.2) m acc.1
              return (merged?.getD acc.1, given'?.getD acc.2))
            (new, given)
          return (some new, given?.map fun _ => given)
      else return (none, given?)
    | n =>
      mismatch type n
      return (none, given?)

/-- A bound on how deeply records can be merged into each other: every step follows an alias that
is not being followed yet, or goes into a node. -/
def mergeFuel (scope : Scope) : Nat :=
  (scope.graph.size + 1) * (scope.graph.size + 1)

end Decode

end Yaml

/-! ## The fields of a document -/

namespace TransitionDocument

open Yaml

/-- The fields of a transition. -/
def yamlFields : Decode.Fields TransitionDocument :=
  [("predicate", fun scope n d => return { d with predicate := ← Decode.text scope n d.predicate }),
   ("state", fun scope n d => return { d with state := ← Decode.text scope n d.state })]

/-- The predicate with its tag in front, for a scalar whose tag is written in the text and is none
of the schema's. -/
def restoreTag (entry : Node × Node) (d : TransitionDocument) : TransitionDocument :=
  match entry.2 with
  | .scalar _ tag true text =>
    if entry.1.text == Text.ofString "predicate" && !(Text.ofString "!!").isPrefixOf tag then
      { d with predicate := tag ++ text }
    else d
  | _ => d

/-- Reads a transition that is not an alias. The nodes that it visits are counted by themselves. -/
def ofNode (scope : Scope) (n : Node) : Decode (Option TransitionDocument) := do
  let scope := { scope with active := [] }
  let ((d?, _), tally) ←
    (Decode.record "loader.plain" yamlFields (Decode.mergeFuel scope) scope none n {}).run {}
  modify fun t => { t with complaints := tally.complaints ++ t.complaints }
  if tally.complaints != [] then return none
  else
    match n with
    | .mapping _ _ entries => return d?.map fun d => entries.foldl (fun d e => restoreTag e d) d
    | _ => return d?

/-- Is the tag of a node that of null? -/
def isNullNode : Node → Decode Bool
  | .scalar _ tag _ _ => return tag == schema.null
  | .sequence _ tag _ => return tag == schema.null
  | .mapping _ tag _ => return tag == schema.null
  | .reference .. => return false

/-- Reads a transition. -/
def ofYaml (scope : Scope) (n : Node) : Decode (Option TransitionDocument) := do
  let (scope, n) ← Decode.follow scope n
  if ← isNullNode n then
    return (← Decode.record "loader.TransitionDocument" yamlFields (Decode.mergeFuel scope) scope
      none n {}).1
  else ofNode scope n

end TransitionDocument

namespace StateDocument

open Yaml

/-- The fields of a state. -/
def yamlFields : Decode.Fields StateDocument :=
  [("name", fun scope n d => return { d with name := ← Decode.text scope n d.name }),
   ("run", fun scope n d => return { d with run := ← Decode.text scope n d.run }),
   ("transitions", fun scope n d => return { d with
      transitions :=
        ← Decode.list "[]loader.TransitionDocument" TransitionDocument.ofYaml scope n })]

/-- Reads a state. -/
def ofYaml (scope : Scope) (n : Node) : Decode (Option StateDocument) := do
  return (← Decode.record "loader.StateDocument" yamlFields (Decode.mergeFuel scope) scope none
    n {}).1

end StateDocument

namespace Document

open Yaml

/-- The fields of a document. -/
def yamlFields : Decode.Fields Document :=
  [("start", fun scope n d => return { d with start := ← Decode.text scope n d.start }),
   ("states", fun scope n d => return { d with
      states := ← Decode.list "[]loader.StateDocument" StateDocument.ofYaml scope n })]

/-- Why a YAML text gives no document. -/
inductive YamlError where
  /-- The text is refused. -/
  | fault (fault : Fault)
  /-- The text can be read, but parts of it have the wrong form. -/
  | complaints (complaints : List Complaint)
deriving DecidableEq

/-- Reads the nodes of a document. -/
def ofGraph (g : Graph) : Except YamlError Document :=
  let scope : Scope := { graph := g }
  let reading := do
    Decode.visit scope
    Decode.record "loader.Document" yamlFields (Decode.mergeFuel scope) scope none g.root {}
  match reading.run {} with
  | .error fault => .error (.fault fault)
  | .ok ((d?, _), tally) =>
    if tally.complaints == [] then .ok (d?.getD {})
    else .error (.complaints tally.complaints.reverse)

/-- Reads the first document of a YAML text; a text without one describes nothing. -/
def ofYaml (s : Text) : Except YamlError Document :=
  match Graph.ofTokens? (Token.scan (CharStream.ofText s)) with
  | .error fault => .error (.fault fault)
  | .ok none => .ok {}
  | .ok (some g) => ofGraph g

end Document

end StateForge
