import StateForge.Machine.Error
import StateForge.Text.Rune

/-!
# Predicates

The condition of a transition: nothing, the result of a boolean function, or its negation.
In a document a negation is written with a leading exclamation mark, and white space around the name
and after the mark does not count.
-/

set_option autoImplicit false

namespace StateForge

/-- The condition of a transition. Without a name it always holds. -/
structure Predicate where
  /-- The boolean function that decides, without the negation mark. -/
  name : Text
  /-- Is the result of the function negated? -/
  negated : Bool
deriving DecidableEq

namespace Predicate

/-- The mark in front of a negated name. -/
def negationMark : UInt8 := 0x21

/-- The condition that always holds. -/
def always : Predicate := ⟨[], false⟩

/-- Reads a predicate as it is written in a document. -/
def parse (written : Text) : Except ModelError Predicate :=
  match written.trim with
  | [] => .ok always
  | b :: rest =>
    if b = negationMark then
      let name := Text.trim rest
      if name = [] then .error (.emptyPredicate (b :: rest)) else .ok ⟨name, true⟩
    else .ok ⟨b :: rest, false⟩

/-- Does the condition always hold? -/
def isEmpty (p : Predicate) : Bool :=
  p.name == []

/-- The predicate as it is written in a document. -/
def written (p : Predicate) : Text :=
  if p.negated then negationMark :: p.name else p.name

/-- The predicate as an expression of C. -/
def call (p : Predicate) : Text :=
  p.written ++ "()"

end Predicate

end StateForge
