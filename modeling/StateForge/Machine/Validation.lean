import StateForge.Machine.Basic
import StateForge.Identifier

/-!
# Validation

A machine is valid if code generated from it compiles: every state that is referred to exists,
every name is an identifier that is not a keyword, and no transition comes after one that is always
taken. `Machine.violations` lists everything that is wrong, in the order of the machine.
-/

set_option autoImplicit false

namespace StateForge

/-- Why a text cannot be used as a name in C. -/
inductive IdentifierFault where
  | malformed
  | reserved
deriving DecidableEq

/-- What is wrong with a name, if anything. -/
def Text.identifierFault? (s : Text) : Option IdentifierFault :=
  if !s.isIdentifier then some .malformed
  else if s.isReserved then some .reserved
  else none

/-- One reason for which generated code would not compile. -/
inductive Violation where
  /-- The initial state is not declared. -/
  | unknownStart (start : Text)
  /-- The name of a state is no identifier. -/
  | stateName (state : Text) (fault : IdentifierFault)
  /-- The action of a state is no identifier. -/
  | action (state name : Text) (fault : IdentifierFault)
  /-- The transition at `index` comes after the unconditional one at `blocker`. -/
  | unreachable (state : Text) (index blocker : Nat)
  /-- The transition at `index` leads to a state that is not declared. -/
  | unknownTarget (state : Text) (index : Nat) (target : Text)
  /-- The predicate of the transition at `index` is no identifier. -/
  | predicate (state : Text) (index : Nat) (p : Predicate) (fault : IdentifierFault)
deriving DecidableEq

/-- What kind of problem a violation is, for callers that only ask for that. -/
inductive ViolationKind where
  | unknownState
  | invalidIdentifier
  | unreachableTransition
deriving DecidableEq

namespace IdentifierFault

/-- The wording of a fault. -/
def message : IdentifierFault → Text
  | malformed => "invalid C identifier"
  | reserved => "invalid C identifier: reserved word"

end IdentifierFault

namespace Violation

/-- The place of a transition, as messages name it. -/
def place (state : Text) (index : Nat) : Text :=
  "state " ++ state.quoted ++ " transition " ++ Text.decimal index

/-- The wording of a violation. -/
def message : Violation → Text
  | unknownStart start => "start " ++ start.quoted ++ ": unknown state"
  | stateName state fault => "state " ++ state.quoted ++ ": name: " ++ fault.message
  | action state name fault =>
    "state " ++ state.quoted ++ ": run " ++ name.quoted ++ ": " ++ fault.message
  | unreachable state index blocker =>
    place state index ++ ": follows unconditional transition " ++ Text.decimal blocker ++
      ": unreachable transition"
  | unknownTarget state index target =>
    place state index ++ ": target " ++ target.quoted ++ ": unknown state"
  | predicate state index p fault =>
    place state index ++ ": predicate " ++ p.written.quoted ++ ": " ++ fault.message

/-- The kind of a violation. -/
def kind : Violation → ViolationKind
  | unknownStart _ => .unknownState
  | stateName .. => .invalidIdentifier
  | action .. => .invalidIdentifier
  | unreachable .. => .unreachableTransition
  | unknownTarget .. => .unknownState
  | predicate .. => .invalidIdentifier

/-- Is a violation of the given kind among those that are reported? -/
def reports (kind : ViolationKind) (violations : List Violation) : Bool :=
  violations.any fun v => v.kind == kind

/-- The wording of a list of violations: one line each. -/
def report (violations : List Violation) : Text :=
  [Text.newline].intercalate (violations.map message)

end Violation

namespace Transition

/-- What is wrong with the transition at `index`, whose predecessors include the unconditional one
at `blocker?`, if any. -/
def violations (declared : List Text) (state : Text) (index : Nat) (blocker? : Option Nat)
    (t : Transition) : List Violation :=
  (match blocker? with
    | some blocker => [.unreachable state index blocker]
    | none => []) ++
  (if t.target ∈ declared then [] else [.unknownTarget state index t.target]) ++
  (if t.isUnconditional then []
    else
      match t.predicate.name.identifierFault? with
      | some fault => [.predicate state index t.predicate fault]
      | none => [])

end Transition

namespace State

/-- What is wrong with the transitions from `index` on. -/
def transitionViolations (declared : List Text) (state : Text) (index : Nat)
    (blocker? : Option Nat) : List Transition → List Violation
  | [] => []
  | t :: rest =>
    t.violations declared state index blocker? ++
      transitionViolations declared state (index + 1)
        (blocker?.or (if t.isUnconditional then some index else none)) rest

/-- What is wrong with a state. -/
def violations (declared : List Text) (st : State) : List Violation :=
  (match st.name.identifierFault? with
    | some fault => [.stateName st.name fault]
    | none => []) ++
  (match st.action.identifierFault? with
    | some fault => [.action st.name st.action fault]
    | none => []) ++
  transitionViolations declared st.name 0 none st.transitions

end State

namespace Machine

/-- Everything that is wrong with a machine. -/
def violations (m : Machine) : List Violation :=
  (if m.start ∈ m.stateNames then [] else [.unknownStart m.start]) ++
    m.states.flatMap (State.violations m.stateNames)

end Machine

end StateForge
