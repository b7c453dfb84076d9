import StateForge.Machine.Predicate

/-!
# State machines

A machine is a list of states with the name of the initial one. A state names the action that runs
while the machine is in it and lists its transitions; the first one whose predicate holds is taken.
States refer to each other by name, and nothing here requires that the names exist: that is what
`StateForge.Machine.Validation` looks at.

The constructors `Transition.make`, `State.make` and `Machine.make` refuse what no later stage could
give a meaning to: missing names and two states of one name.
-/

set_option autoImplicit false

namespace StateForge

/-- A conditional step to another state. -/
structure Transition where
  predicate : Predicate
  /-- The name of the state it leads to. -/
  target : Text
deriving DecidableEq

/-- A state with its ways out, in order of precedence. -/
structure State where
  name : Text
  /-- The function that is called whenever the machine runs in this state. -/
  action : Text
  transitions : List Transition
deriving DecidableEq

/-- A state machine. The order of the states is the order in which code is generated. -/
structure Machine where
  states : List State
  /-- The name of the initial state. -/
  start : Text
deriving DecidableEq

namespace Transition

/-- A transition from the text of its predicate and the name of its target. -/
def make (predicate target : Text) : Except ModelError Transition :=
  if target = [] then .error .emptyTarget
  else do
    let p ← Predicate.parse predicate
    return ⟨p, target⟩

/-- Is the transition taken whenever it is reached? -/
def isUnconditional (t : Transition) : Bool :=
  t.predicate.isEmpty

end Transition

namespace State

/-- A state with a name and an action. -/
def make (name action : Text) (transitions : List Transition) : Except ModelError State :=
  if name = [] then .error .emptyStateName
  else if action = [] then .error (.emptyAction name)
  else .ok ⟨name, action, transitions⟩

end State

namespace Machine

/-- The first name in the list that is among `seen` or occurs before itself. -/
def firstRepeated? (seen : List Text) : List Text → Option Text
  | [] => none
  | name :: rest => if name ∈ seen then some name else firstRepeated? (name :: seen) rest

/-- The names of the states, in order. -/
def stateNames (m : Machine) : List Text :=
  m.states.map State.name

/-- A machine with an initial state and without two states of one name. -/
def make (start : Text) (states : List State) : Except ModelError Machine :=
  if start = [] then .error .emptyStart
  else
    match firstRepeated? [] (states.map State.name) with
    | some name => .error (.duplicateState name)
    | none => .ok ⟨states, start⟩

/-- The first state with the given name. -/
def lookup? (m : Machine) (name : Text) : Option State :=
  m.states.find? fun st => st.name == name

end Machine

end StateForge
