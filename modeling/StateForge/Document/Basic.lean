import StateForge.Machine.Basic

/-!
# Documents

A document describes a machine: its fields are the texts that were read, whatever format they were
written in. `Document.build` turns a document into a machine, or says which part of the document has
none of the meanings that a machine could have.
-/

set_option autoImplicit false

namespace StateForge

/-- The description of a transition. -/
structure TransitionDocument where
  predicate : Text := []
  /-- The name of the target. -/
  state : Text := []
deriving DecidableEq

/-- The description of a state. -/
structure StateDocument where
  name : Text := []
  run : Text := []
  transitions : List TransitionDocument := []
deriving DecidableEq

/-- The description of a machine. -/
structure Document where
  start : Text := []
  states : List StateDocument := []
deriving DecidableEq

/-- Why a document describes no machine, and where. -/
inductive BuildError where
  /-- The transition at `transition` of the state at `state` is at fault. -/
  | transition (state transition : Nat) (cause : ModelError)
  /-- The state at `state` is at fault, with its transitions in order. -/
  | state (state : Nat) (cause : ModelError)
  /-- The states are in order, and the machine as a whole is at fault. -/
  | machine (cause : ModelError)
deriving DecidableEq

/-- What callers can ask an error for: whether it is about a document, and whether it is a problem
of a given kind. -/
inductive BuildErrorKind where
  | malformedDocument
  | model (kind : ModelErrorKind)
deriving DecidableEq

namespace BuildError

/-- What is wrong. -/
def cause : BuildError → ModelError
  | transition _ _ cause => cause
  | state _ cause => cause
  | machine cause => cause

/-- Is the error of the given kind? -/
def isOf (e : BuildError) : BuildErrorKind → Bool
  | .malformedDocument => true
  | .model kind => e.cause.kind == kind

/-- The place of a state or transition in a document, as messages name it. -/
def index (list : Text) (i : Nat) : Text :=
  list ++ "[" ++ Text.decimal i ++ "]: "

/-- The wording of an error. -/
def message : BuildError → Text
  | transition i j cause => index "states" i ++ index "transitions" j ++ cause.message
  | state i cause => index "states" i ++ cause.message
  | machine cause => cause.message

end BuildError

namespace TransitionDocument

/-- The transitions that are described from index `j` on, in the state at index `i`. -/
def buildAll (i j : Nat) : List TransitionDocument → Except BuildError (List Transition)
  | [] => .ok []
  | d :: rest => do
    let t ← (Transition.make d.predicate d.state).mapError (.transition i j)
    return t :: (← buildAll i (j + 1) rest)

end TransitionDocument

namespace StateDocument

/-- The state that is described at index `i`. -/
def build (i : Nat) (d : StateDocument) : Except BuildError State := do
  let transitions ← TransitionDocument.buildAll i 0 d.transitions
  (State.make d.name d.run transitions).mapError (.state i)

/-- The states that are described from index `i` on. -/
def buildAll (i : Nat) : List StateDocument → Except BuildError (List State)
  | [] => .ok []
  | d :: rest => do
    let st ← d.build i
    return st :: (← buildAll (i + 1) rest)

end StateDocument

namespace Document

/-- The machine that a document describes. -/
def build (d : Document) : Except BuildError Machine := do
  let states ← StateDocument.buildAll 0 d.states
  (Machine.make d.start states).mapError .machine

end Document

end StateForge
