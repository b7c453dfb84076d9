import StateForge.Proofs.Recovery
import StateForge.Proofs.Simulation

/-!
# The statements of generated functions

What a function calls, asks for and assigns can be read off the list of its statements, without
regard to how they are nested. `Code.statements` is that list, in the order of the source, for any
code of the C fragment, and the functions under it pick out what is of interest.

For the two generated functions the list is known: `Machine.statements_runBody` and
`Machine.statements_transitionBody` give it state by state. A chain of conditions ends at the first
unconditional transition, so the second list has the transitions that are reached and no others.
-/

set_option autoImplicit false

namespace StateForge

namespace Fragment

/-! ## Statements, one by one -/

/-- A statement, without the statements in it. -/
inductive Statement where
  | assign (x : Text) (e : Expr)
  | call (f : Text)
  | leave
  | label (l : Text)
  | branch (c : Expr)
  /-- A `switch`, with the labels that stand directly in it. -/
  | choose (e : Expr) (labels : List Text)
deriving DecidableEq

namespace Statement

/-- The functions that a statement calls. -/
def calls : Statement → List Text
  | assign _ e => e.calls
  | call f => [f]
  | leave => []
  | label _ => []
  | branch c => c.calls
  | choose e _ => e.calls

/-- The condition of an `if`. -/
def condition? : Statement → Option Expr
  | branch c => some c
  | _ => none

/-- The labels of a `switch`. -/
def labels? : Statement → Option (List Text)
  | choose _ labels => some labels
  | _ => none

/-- What a statement gives to a variable. -/
def assigned? (x : Text) : Statement → Option Expr
  | assign y e => if y = x then some e else none
  | _ => none

end Statement

namespace Code

/-- All statements, in the order of the source. -/
def statements : Code → List Statement
  | done => []
  | assign x e rest => .assign x e :: rest.statements
  | call f rest => .call f :: rest.statements
  | leave rest => .leave :: rest.statements
  | label l rest => .label l :: rest.statements
  | branch c yes no rest =>
    .branch c :: (yes.statements ++ (no.statements ++ rest.statements))
  | choose e body rest => .choose e body.labels :: (body.statements ++ rest.statements)

/-- The functions that are called, each as often as it is. -/
def calls (c : Code) : List Text :=
  c.statements.flatMap Statement.calls

/-- The conditions that are asked for. -/
def conditions (c : Code) : List Expr :=
  c.statements.filterMap Statement.condition?

/-- The labels of each `switch`. -/
def switches (c : Code) : List (List Text) :=
  c.statements.filterMap Statement.labels?

/-- What is assigned to a variable. -/
def assigned (x : Text) (c : Code) : List Expr :=
  c.statements.filterMap (Statement.assigned? x)

end Code

end Fragment

open Fragment

/-! ## Chains of conditions -/

namespace Transition

/-- The statements that a transition becomes. -/
def statements (t : Transition) : List Statement :=
  (if t.isUnconditional then [] else [.branch t.predicate.condition]) ++
    [.assign nextVariable (.operand (.name t.target))]

/-- **A chain has the statements of the transitions that are reached.** -/
theorem statements_code (ts : List Transition) (rest : Code) :
    (code ts rest).statements = (reached ts).flatMap statements ++ rest.statements := by
  induction ts generalizing rest with
  | nil => rfl
  | cons t ts ih =>
    rw [code, reached]
    by_cases hu : t.isUnconditional = true
    · rw [if_pos hu, if_pos hu, List.flatMap_singleton, statements, if_pos hu]
      rfl
    · rw [if_neg hu, if_neg hu, List.flatMap_cons, statements, if_neg hu, Code.statements, ih]
      simp [choice, Code.statements]

end Transition

namespace State

/-- The statements of the case that runs the action of a state. -/
def runStatements (st : State) : List Statement :=
  [.label st.name, .call st.action, .leave]

/-- The statements of the case that chooses the state after this one. -/
def transitionStatements (st : State) : List Statement :=
  .label st.name :: ((Transition.reached st.transitions).flatMap Transition.statements ++ [.leave])

theorem statements_runCode (st : State) (rest : Code) :
    (st.runCode rest).statements = st.runStatements ++ rest.statements := rfl

theorem statements_transitionCode (st : State) (rest : Code) :
    (st.transitionCode rest).statements = st.transitionStatements ++ rest.statements := by
  rw [transitionCode, Code.statements, Transition.statements_code, transitionStatements,
    Code.statements]
  simp

end State

/-! ## Functions -/

/-- Cases that follow each other have their statements one after the other. -/
theorem statements_foldr {f : State → Code → Code} {g : State → List Statement}
    (hf : ∀ st rest, (f st rest).statements = g st ++ rest.statements) (states : List State) :
    (states.foldr f .done).statements = states.flatMap g := by
  induction states with
  | nil => rfl
  | cons st rest ih => rw [List.foldr_cons, hf, ih, List.flatMap_cons]

namespace Machine

/-- The statement that opens a `switch` over the states. -/
def switchStatement (m : Machine) : Statement :=
  .choose (.operand (.name currentVariable)) m.stateNames

/-- **The function that runs an action has one case for each state.** -/
theorem statements_runBody (m : Machine) :
    m.runBody.statements = m.switchStatement :: m.states.flatMap State.runStatements := by
  rw [runBody, Code.statements, State.isCase_runCode.labels_foldr,
    statements_foldr State.statements_runCode, Code.statements, List.append_nil]
  rfl

/-- **The function that moves on has one case for each state**, and then it writes the current
state. -/
theorem statements_transitionBody (m : Machine) :
    m.transitionBody.statements
      = m.switchStatement ::
          (m.states.flatMap State.transitionStatements ++ commit.statements) := by
  rw [transitionBody, Code.statements, State.isCase_transitionCode.labels_foldr,
    statements_foldr State.statements_transitionCode]
  rfl

/-- Where labels and `break` are of no interest, what is picked out of the second function comes
from its `switch`, from the transitions that are reached and from the end. -/
theorem filterMap_transitionBody (m : Machine) {β : Type} {f : Statement → Option β}
    (hlabel : ∀ l, f (.label l) = none) (hleave : f .leave = none) :
    m.transitionBody.statements.filterMap f
      = (f m.switchStatement).toList ++
        ((m.states.flatMap fun st =>
          (Transition.reached st.transitions).flatMap fun t => t.statements.filterMap f) ++
        commit.statements.filterMap f) := by
  have hcase : ∀ st : State, st.transitionStatements.filterMap f
      = (Transition.reached st.transitions).flatMap fun t => t.statements.filterMap f := by
    intro st
    rw [State.transitionStatements, List.filterMap_cons_none (hlabel st.name),
      List.filterMap_append, List.filterMap_flatMap, List.filterMap_cons_none hleave,
      List.filterMap_nil, List.append_nil]
  rw [statements_transitionBody, List.filterMap_cons, List.filterMap_append,
    List.filterMap_flatMap]
  simp only [hcase]
  cases f m.switchStatement <;> rfl

/-- The two functions of an implementation. -/
theorem function?_program (m : Machine) (f : Text) :
    function? m.program f
      = if f = runName then some ([], m.runBody)
        else if f = transitionName then some ([nextLocal], m.transitionBody) else none := by
  rw [← function?_sources]
  simp [function?, sources, interface]

end Machine

end StateForge
