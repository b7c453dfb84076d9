import StateForge.Machine.Basic
import StateForge.Text.Width

/-!
# Diagrams

A machine drawn as text, one block for each state:

```
IDLE --> RUN

RUN  +-- !done --> RUN
     +-- else  --> IDLE
```

Names are padded to a common display width, and so are the labels of one state.
-/

set_option autoImplicit false

namespace StateForge

/-- The symbols of a diagram. -/
structure DiagramStyle where
  /-- Stands before the target of a transition. -/
  arrow : Text
  /-- Stands before the label of a transition. -/
  junction : Text

namespace DiagramStyle

/-- Plain ASCII symbols. -/
def ascii : DiagramStyle := ⟨"-->", "+--"⟩

end DiagramStyle

/-- The label of the transition at `index`. -/
def Transition.label (index : Nat) (t : Transition) : Text :=
  if !t.isUnconditional then t.predicate.written
  else if index = 0 then "always"
  else "else"

/-- The labels of a list of transitions, the first of which stands at `index`. -/
def Transition.labels (index : Nat) : List Transition → List Text
  | [] => []
  | t :: rest => t.label index :: labels (index + 1) rest

/-- The width of the widest text. -/
def Text.maxWidth (texts : List Text) : Nat :=
  texts.foldl (fun w s => max w s.width) 0

namespace DiagramStyle

/-- One row: what stands on its left, its padded label and its target. -/
def row (style : DiagramStyle) (left label target : Text) : Text :=
  (left ++ " " ++ style.junction ++ " " ++ label ++ " " ++ style.arrow ++ " " ++
    target).trimSpacesRight

/-- The rows of a state after the first, which are indented. -/
def rows (style : DiagramStyle) (left indent : Text) (labelWidth : Nat) :
    List (Text × Transition) → List Text
  | [] => []
  | (label, t) :: rest =>
    style.row left (label.padRight labelWidth) t.target ::
      rows style indent indent labelWidth rest

/-- The block of a state, in a diagram whose names are `nameWidth` wide. -/
def block (style : DiagramStyle) (nameWidth : Nat) (st : State) : List Text :=
  let name := st.name.padRight nameWidth
  let branches :=
    let labels := Transition.labels 0 st.transitions
    style.rows name (Text.spaces nameWidth) (Text.maxWidth labels) (labels.zip st.transitions)
  match st.transitions with
  | [] => [name ++ "  (no transitions)"]
  | [t] =>
    if t.isUnconditional then
      [(name ++ " " ++ style.arrow ++ " " ++ t.target).trimSpacesRight]
    else branches
  | _ => branches

end DiagramStyle

namespace Machine

/-- The lines of a diagram. -/
def diagram (m : Machine) (style : DiagramStyle) : List Text :=
  let nameWidth := Text.maxWidth m.stateNames
  ("state flow (start: " ++ m.start ++ ")") ::
    m.states.flatMap fun st => [] :: style.block nameWidth st

/-- A line of a diagram inside a block comment. -/
def commentLine (line : Text) : Text :=
  if line = [] then " *" else " * " ++ line

/-- The lines of a diagram as a block comment of C. -/
def diagramComment (m : Machine) (style : DiagramStyle) : List Text :=
  "/*" :: ((m.diagram style).map commentLine ++ ([" */"] : List Text))

end Machine

end StateForge
