import StateForge.Document.Basic
import StateForge.Json.Value

/-!
# Documents in JSON

The members of an object are read one after the other into a record that starts out empty. A name
matches a field exactly or up to case; a member that matches no field is skipped. So the last of
several members with one name counts, and `null` leaves a text as it is.
-/

set_option autoImplicit false

namespace StateForge

/-- Why a JSON text gives no document. -/
inductive JsonError where
  /-- The text is not JSON. -/
  | syntaxError
  /-- A value has the wrong type for its field. -/
  | typeError
deriving DecidableEq

namespace Json

/-- Reads a value into a text. -/
def intoText (old : Text) : Json → Except JsonError Text
  | string s => .ok s
  | null => .ok old
  | _ => .error .typeError

/-- Reads items one after the other, each into the item at its place in the old list or into a fresh
one. -/
def intoItems {α : Type} (item : α → Json → Except JsonError α) (fresh : α) :
    List α → List Json → Except JsonError (List α)
  | _, [] => .ok []
  | old, v :: vs => do
    let new ← item (old.head?.getD fresh) v
    return new :: (← intoItems item fresh old.tail vs)

/-- Reads a value into a list. -/
def intoList {α : Type} (item : α → Json → Except JsonError α) (fresh : α) (old : List α) :
    Json → Except JsonError (List α)
  | array vs => intoItems item fresh old vs
  | null => .ok []
  | _ => .error .typeError

/-- The fields of a record, each with the way to read it into the record. -/
abbrev Fields (α : Type) := List (String × (α → Json → Except JsonError α))

/-- The field that a name stands for. -/
def field? {α : Type} (fields : Fields α) (name : Text) : Option (α → Json → Except JsonError α) :=
  match fields.find? fun f => Text.ofString f.1 == name with
  | some f => some f.2
  | none => (fields.find? fun f => name.foldsTo f.1).map Prod.snd

/-- Reads a value into a record. -/
def intoRecord {α : Type} (fields : Fields α) (old : α) : Json → Except JsonError α
  | object members =>
    members.foldlM
      (fun record member =>
        match field? fields member.1 with
        | some read => read record member.2
        | none => .ok record)
      old
  | null => .ok old
  | _ => .error .typeError

end Json

namespace TransitionDocument

/-- The fields of a transition. -/
def jsonFields : Json.Fields TransitionDocument :=
  [("predicate", fun d v => return { d with predicate := ← Json.intoText d.predicate v }),
   ("state", fun d v => return { d with state := ← Json.intoText d.state v })]

end TransitionDocument

namespace StateDocument

/-- The fields of a state. -/
def jsonFields : Json.Fields StateDocument :=
  [("name", fun d v => return { d with name := ← Json.intoText d.name v }),
   ("run", fun d v => return { d with run := ← Json.intoText d.run v }),
   ("transitions", fun d v => return { d with
      transitions :=
        ← Json.intoList (Json.intoRecord TransitionDocument.jsonFields) {} d.transitions v })]

end StateDocument

namespace Document

/-- The fields of a document. -/
def jsonFields : Json.Fields Document :=
  [("start", fun d v => return { d with start := ← Json.intoText d.start v }),
   ("states", fun d v => return { d with
      states := ← Json.intoList (Json.intoRecord StateDocument.jsonFields) {} d.states v })]

/-- Reads a document from a JSON text. -/
def ofJson (s : Text) : Except JsonError Document :=
  match Json.parse? s with
  | some v => Json.intoRecord jsonFields {} v
  | none => .error .syntaxError

end Document

end StateForge
