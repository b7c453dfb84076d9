import StateForge.Machine.Basic

/-!
# Machine dumps

The verbose mode shows the machine it has read as a nested list of fields, each with its type and
the length of its value. A list or text of length zero shows no length.
-/

set_option autoImplicit false

namespace StateForge

namespace Dump

/-- The length of a value, which is left out when it is zero. -/
def size (n : Nat) : Text :=
  if n = 0 then [] else "(len=" ++ Text.decimal n ++ ") "

/-- A text with its type and length. -/
def text (s : Text) : Text :=
  "(string) " ++ size s.length ++ s.quoted

/-- Ends the last line of a block with a comma. -/
def withComma : List Text → List Text
  | [] => []
  | [line] => [line ++ ","]
  | line :: rest => line :: withComma rest

/-- Ends all but the last of a list of blocks with a comma. -/
def separated : List (List Text) → List Text
  | [] => []
  | [block] => block
  | block :: rest => withComma block ++ separated rest

/-- A line one level deeper. -/
def indent (line : Text) : Text :=
  "  " ++ line

/-- A list of blocks with its type and length. -/
def list (type : Text) (blocks : List (List Text)) : List Text :=
  (type ++ " " ++ size blocks.length ++ "\x7b") ::
    (separated blocks).map indent ++ (["\x7d"] : List Text)

/-- A field with a value of several lines. -/
def field (name : Text) : List Text → List Text
  | [] => [name ++ ": "]
  | first :: rest => (name ++ ": " ++ first) :: rest

/-- A record with its type. -/
def record (opening closing : Text) (fields : List (List Text)) : List Text :=
  opening :: (separated fields).map indent ++ [closing]

end Dump

namespace Transition

/-- The lines that show a transition. -/
def dump (t : Transition) : List Text :=
  Dump.record "(machine.Transition) \x7b" "\x7d"
    [Dump.field "Predicate" ["(machine.Predicate) " ++ t.predicate.written],
     Dump.field "Target" [Dump.text t.target]]

end Transition

namespace State

/-- The lines that show a state. -/
def dump (st : State) : List Text :=
  Dump.record "(machine.State) \x7b" "\x7d"
    [Dump.field "Name" [Dump.text st.name],
     Dump.field "Action" [Dump.text st.action],
     Dump.field "Transitions"
       (Dump.list "([]machine.Transition)" (st.transitions.map Transition.dump))]

end State

namespace Machine

/-- The lines that show a machine. -/
def dump (m : Machine) : List Text :=
  Dump.record "(*machine.StateMachine)(\x7b" "\x7d)"
    [Dump.field "States" (Dump.list "([]machine.State)" (m.states.map State.dump)),
     Dump.field "Start" [Dump.text m.start]]

end Machine

end StateForge
