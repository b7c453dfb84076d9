import StateForge.Machine.Diagram

/-!
# Generated C sources

A machine becomes a header, with the enumeration of its states, and an implementation, with two
functions: one runs the action of the current state, the other evaluates the transitions of the
current state in order and moves on. Sources are lists of lines without line ends.
-/

set_option autoImplicit false

namespace StateForge

/-- What the two sources of a machine are called and include. -/
structure SourceLayout where
  /-- The base of the file names and of the include guard. -/
  baseName : Text := "StateMachine"
  /-- The header of the target platform, which the implementation includes. -/
  platformHeader : Text := "Arduino.h"
  /-- Does the header carry a diagram in a comment? -/
  diagram : Bool := false

namespace SourceLayout

/-- A layout in which an empty name stands for the default one. -/
def ofOptions (baseName platformHeader : Text) (diagram : Bool) : SourceLayout :=
  let default : SourceLayout := {}
  { baseName := if baseName = [] then default.baseName else baseName
    platformHeader := if platformHeader = [] then default.platformHeader else platformHeader
    diagram }

/-- The name of the header file. -/
def headerName (layout : SourceLayout) : Text :=
  layout.baseName ++ ".h"

/-- The name of the implementation file, for an extension without its dot. -/
def implementationName (layout : SourceLayout) (extension : Text) : Text :=
  layout.baseName ++ "." ++ extension

/-- The macro that guards the header against being included twice. -/
def guardName (layout : SourceLayout) : Text :=
  layout.baseName ++ "_h"

end SourceLayout

namespace Machine

/-- The actions of a machine, each once, in order of first use. -/
def actions (m : Machine) : List Text :=
  (m.states.map State.action).eraseDups

/-- The predicate functions of a machine, each once, in order of first use. -/
def predicateNames (m : Machine) : List Text :=
  ((m.states.flatMap State.transitions).filterMap fun t =>
    if t.isUnconditional then none else some t.predicate.name).eraseDups

end Machine

namespace Transition

/-- The assignment that a transition makes, at a given depth. -/
def assignment (depth : Text) (t : Transition) : Text :=
  depth ++ "nextState = " ++ t.target ++ ";"

/-- The branches that follow the first one in a chain of conditions. An unconditional transition
is the last branch: what follows it is never reached and is left out. -/
def chainRest : List Transition → List Text
  | [] => []
  | t :: rest =>
    if t.isUnconditional then ["\t\t\x7d else \x7b", t.assignment "\t\t\t"]
    else
      ("\t\t\x7d else if (" ++ t.predicate.call ++ ") \x7b") :: t.assignment "\t\t\t" ::
        chainRest rest

/-- The closing brace of a chain of conditions. -/
def chainEnd : Text := "\t\t\x7d"

/-- The code that chooses among the transitions of one state. -/
def chain : List Transition → List Text
  | [] => []
  | t :: rest =>
    if t.isUnconditional then [t.assignment "\t\t"]
    else
      ("\t\tif (" ++ t.predicate.call ++ ") \x7b") :: t.assignment "\t\t\t" ::
        (chainRest rest ++ [chainEnd])

end Transition

namespace State

/-- The label of the case of a state. -/
def caseLabel (st : State) : Text :=
  "\tcase " ++ st.name ++ ":"

/-- The end of a case. -/
def caseEnd : Text := "\t\tbreak;"

/-- The case that runs the action of a state. -/
def runCase (st : State) : List Text :=
  [st.caseLabel, "\t\t" ++ st.action ++ "();", caseEnd]

/-- The case that chooses the state after this one. -/
def transitionCase (st : State) : List Text :=
  st.caseLabel :: (Transition.chain st.transitions ++ [caseEnd])

end State

/-! ## The two functions -/

/-- The opening lines of the function that runs an action. -/
def runOpening : List Text :=
  ["void stateRun() \x7b", "\tswitch (state) \x7b"]

/-- The closing lines of the function that runs an action. -/
def runClosing : List Text :=
  ["\t\x7d", "\x7d"]

/-- The opening lines of the function that changes the state. -/
def transitionOpening : List Text :=
  ["void stateTransition() \x7b", "\tenum State nextState = state;", "\tswitch (state) \x7b"]

/-- The closing lines of the function that changes the state: the state is only written when it
changes. -/
def transitionClosing : List Text :=
  ["\t\x7d", "\tif (nextState != state) \x7b", "\t\tstate = nextState;", "\t\x7d", "\x7d"]

namespace Machine

/-- The function that runs the action of the current state. -/
def runFunction (m : Machine) : List Text :=
  runOpening ++ m.states.flatMap State.runCase ++ runClosing

/-- The function that moves to the next state. -/
def transitionFunction (m : Machine) : List Text :=
  transitionOpening ++ m.states.flatMap State.transitionCase ++ transitionClosing

/-- The declaration of an action. -/
def actionDeclaration (action : Text) : Text :=
  "extern void " ++ action ++ "();"

/-- The declaration of a predicate function. -/
def predicateDeclaration (predicate : Text) : Text :=
  "extern bool " ++ predicate ++ "();"

/-- The line of the header that lists the states. -/
def enumerators (m : Machine) : Text :=
  "\t" ++ (Text.ofString ", ").intercalate m.stateNames

/-- The variable that holds the current state. -/
def stateVariable (m : Machine) : List Text :=
  ["// the current state", "static enum State state = " ++ m.start ++ ";"]

/-- The declarations of the header. -/
def headerBody (m : Machine) : List Text :=
  ["// definition of state values", "enum State \x7b", m.enumerators, "\x7d;", [],
   "extern void stateRun();", "extern void stateTransition();", [], "#endif"]

end Machine

namespace SourceLayout

/-- The include guard at the top of the header. -/
def guardLines (layout : SourceLayout) : List Text :=
  ["#ifndef " ++ layout.guardName, "#define " ++ layout.guardName, []]

/-- The lines of the header. -/
def header (layout : SourceLayout) (m : Machine) : List Text :=
  layout.guardLines ++
    (if layout.diagram then m.diagramComment .ascii ++ [[]] else []) ++
    m.headerBody

/-- The inclusions at the top of the implementation. -/
def includes (layout : SourceLayout) : List Text :=
  ["#include \"" ++ layout.platformHeader ++ "\"", "#include \"" ++ layout.headerName ++ "\""]

/-- The lines of the implementation: its sections, divided by empty lines. -/
def implementation (layout : SourceLayout) (m : Machine) : List Text :=
  layout.includes ++ [] ::
    (m.actions.map Machine.actionDeclaration ++ [] ::
      (m.predicateNames.map Machine.predicateDeclaration ++ [] ::
        (m.stateVariable ++ [] ::
          (m.runFunction ++ [] :: m.transitionFunction))))

end SourceLayout

end StateForge
