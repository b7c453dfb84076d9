import StateForge.Text.Printable

/-!
# What can be wrong with a machine while it is put together
-/

set_option autoImplicit false

namespace StateForge

/-- Why a predicate, transition, state or machine cannot be made. -/
inductive ModelError where
  /-- The machine names no initial state. -/
  | emptyStart
  /-- A state has no name. -/
  | emptyStateName
  /-- The named state has no action. -/
  | emptyAction (state : Text)
  /-- A transition leads nowhere. -/
  | emptyTarget
  /-- A negation of nothing, as written. -/
  | emptyPredicate (written : Text)
  /-- Two states have this name. -/
  | duplicateState (name : Text)
deriving DecidableEq

/-- What kind of problem an error is, for callers that only ask for that. -/
inductive ModelErrorKind where
  | emptyStart
  | emptyStateName
  | emptyAction
  | emptyTarget
  | emptyPredicate
  | duplicateState
deriving DecidableEq

namespace ModelError

/-- The kind of an error. -/
def kind : ModelError → ModelErrorKind
  | emptyStart => .emptyStart
  | emptyStateName => .emptyStateName
  | emptyAction _ => .emptyAction
  | emptyTarget => .emptyTarget
  | emptyPredicate _ => .emptyPredicate
  | duplicateState _ => .duplicateState

/-- The wording of an error. -/
def message : ModelError → Text
  | emptyStart => "start cannot be empty"
  | emptyStateName => "state name cannot be empty"
  | emptyAction state => "state " ++ state.quoted ++ ": state run action cannot be empty"
  | emptyTarget => "transition target state cannot be empty"
  | emptyPredicate written => "negated predicate has no identifier: " ++ written.quoted
  | duplicateState name => "duplicate state name: " ++ name.quoted

end ModelError

end StateForge
