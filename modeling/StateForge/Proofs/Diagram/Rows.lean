import StateForge.Proofs.Alphabet
import Mathlib.Data.List.Basic

/-!
# The rows of a diagram

The block of a state has one of three shapes: a remark that nothing leads out of the state, an
arrow, or a row with a junction for each transition (`DiagramStyle.block_of_none`,
`block_of_single` and `block_of_branches`). Which one it is depends on the transitions alone.

Rows are trimmed on the right. That is what keeps spaces away from the end of a line when a target
is empty (`Text.getLast?_trimSpacesRight`), and it does nothing to a row that ends in a name, so the
rows of an accepted machine can be taken apart without a thought about it (`DiagramStyle.row_ascii`).
-/

set_option autoImplicit false

namespace StateForge

/-! ## Trimming -/

namespace Text

/-- **A trimmed text does not end in a space.** -/
theorem getLast?_trimSpacesRight (s : Text) : s.trimSpacesRight.getLast? ≠ some space := by
  rw [trimSpacesRight, List.getLast?_reverse]
  intro h
  have hnot := List.head?_dropWhile_not (· == space) s.reverse
  rw [h] at hnot
  exact absurd hnot (by decide)

/-- Nothing is cut off a text that does not end in a space. -/
theorem trimSpacesRight_eq_self {s : Text} (h : s.getLast? ≠ some space) :
    s.trimSpacesRight = s := by
  have hkeep : s.reverse.dropWhile (· == space) = s.reverse := by
    rw [← List.head?_reverse] at h
    generalize s.reverse = r at h ⊢
    cases r with
    | nil => rfl
    | cons b rest => exact List.dropWhile_cons_of_neg (by simpa using h)
  rw [trimSpacesRight, hkeep, List.reverse_reverse]

theorem IsUsable.ne_nil {w : Text} (h : w.IsUsable) : w ≠ [] := by
  rintro rfl
  exact absurd h.identifier (by decide)

theorem IsUsable.space_notMem {w : Text} (h : w.IsUsable) : space ∉ w := by
  intro hmem
  exact absurd (h.mem_part hmem) (by decide)

/-- A text that ends in a name is trimmed already. -/
theorem IsUsable.trimSpacesRight_append {w : Text} (h : w.IsUsable) (s : Text) :
    (s ++ w).trimSpacesRight = s ++ w := by
  refine trimSpacesRight_eq_self ?_
  rw [List.getLast?_append_of_ne_nil _ h.ne_nil]
  exact fun hlast => h.space_notMem (List.mem_of_getLast? hlast)

end Text

/-! ## Labels -/

namespace Transition

/-- The first transition of a state is the only one whose place has a say in its label. -/
theorem labels_succ (i : Nat) (ts : List Transition) : labels (i + 1) ts = ts.map (label 1) := by
  induction ts generalizing i with
  | nil => rfl
  | cons t rest ih => rw [labels, ih, List.map_cons, label, label, if_neg i.succ_ne_zero]; rfl

theorem label_of_conditional {t : Transition} (h : t.isUnconditional = false) (i : Nat) :
    t.label i = t.predicate.written := by
  rw [label, h]
  rfl

end Transition

/-! ## Shapes -/

/-- Is the state drawn with junctions? Not if there is nothing to choose. -/
def State.isBranching (st : State) : Bool :=
  match st.transitions with
  | [] => false
  | [t] => !t.isUnconditional
  | _ => true

/-- The three shapes of a state. -/
theorem State.shape_cases (st : State) :
    st.transitions = [] ∨ (∃ t, st.transitions = [t] ∧ t.isUnconditional = true) ∨
      (st.isBranching = true ∧ ∃ t rest, st.transitions = t :: rest) := by
  rw [isBranching]
  rcases st.transitions with _ | ⟨t, _ | ⟨t', rest⟩⟩
  · exact .inl rfl
  · cases ht : t.isUnconditional with
    | true => exact .inr (.inl ⟨t, rfl, ht⟩)
    | false => exact .inr (.inr ⟨by simp [ht], t, [], rfl⟩)
  · exact .inr (.inr ⟨rfl, t, t' :: rest, rfl⟩)

/-- The first of several ways out, or the only one, has a condition if the machine is accepted. -/
theorem Machine.WellFormed.conditional_of_isBranching {m : Machine} (hm : m.WellFormed) {st : State}
    (hst : st ∈ m.states) (hb : st.isBranching = true) {t : Transition} {rest : List Transition}
    (hts : st.transitions = t :: rest) : t.isUnconditional = false := by
  cases rest with
  | nil =>
    rw [State.isBranching, hts] at hb
    simpa using hb
  | cons t' rest => exact hm.conditional hst t (by simp [hts])

namespace DiagramStyle

variable {style : DiagramStyle} {nameWidth : Nat} {st : State}

/-- The row of one transition, in a block whose labels have a common width. -/
def branch (style : DiagramStyle) (left : Text) (labelWidth i : Nat) (t : Transition) : Text :=
  style.row left ((t.label i).padRight labelWidth) t.target

/-- How wide the labels of a state are. -/
def labelWidth (st : State) : Nat :=
  Text.maxWidth (Transition.labels 0 st.transitions)

theorem rows_indented (indent : Text) (width i : Nat) (ts : List Transition) :
    style.rows indent indent width ((Transition.labels (i + 1) ts).zip ts)
      = ts.map (style.branch indent width 1) := by
  rw [Transition.labels_succ]
  induction ts with
  | nil => rfl
  | cons t rest ih => rw [List.map_cons, List.zip_cons_cons, rows, ih]; rfl

theorem block_of_none (h : st.transitions = []) :
    style.block nameWidth st = [st.name.padRight nameWidth ++ "  (no transitions)"] := by
  rw [block, h]

theorem block_of_single {t : Transition} (h : st.transitions = [t])
    (hu : t.isUnconditional = true) :
    style.block nameWidth st
      = [(st.name.padRight nameWidth ++ " " ++ style.arrow ++ " " ++ t.target).trimSpacesRight] := by
  rw [block, h]
  exact if_pos hu

/-- **A state with something to choose has a row for each transition**, the first one with the name
of the state and the others indented. -/
theorem block_of_branches {t : Transition} {rest : List Transition}
    (h : st.transitions = t :: rest) (hb : st.isBranching = true) :
    style.block nameWidth st
      = style.branch (st.name.padRight nameWidth) (labelWidth st) 0 t ::
          rest.map (style.branch (Text.spaces nameWidth) (labelWidth st) 1) := by
  have hrows : style.rows (st.name.padRight nameWidth) (Text.spaces nameWidth) (labelWidth st)
      ((Transition.labels 0 st.transitions).zip st.transitions)
      = style.branch (st.name.padRight nameWidth) (labelWidth st) 0 t ::
          rest.map (style.branch (Text.spaces nameWidth) (labelWidth st) 1) := by
    rw [h, Transition.labels, List.zip_cons_cons, rows, rows_indented]
    rfl
  rw [← hrows, block]
  split
  · rename_i hnone
    exact absurd (h.symm.trans hnone) (by simp)
  · rename_i t' hone
    rw [State.isBranching, hone] at hb
    exact if_neg (by simpa using hb)
  · rfl

/-- A row that leads to a name is not trimmed. -/
theorem row_ascii (left label : Text) {target : Text} (h : target.IsUsable) :
    ascii.row left label target
      = left ++ " " ++ ascii.junction ++ " " ++ label ++ " " ++ ascii.arrow ++ " " ++ target :=
  h.trimSpacesRight_append _

/-- The rows of an accepted machine are told from the empty lines between its blocks. -/
theorem nil_notMem_block {m : Machine} (hm : m.WellFormed) (hst : st ∈ m.states) :
    [] ∉ ascii.block nameWidth st := by
  have htarget : ∀ t ∈ st.transitions, t.target.IsUsable :=
    fun t ht => hm.isUsable_target hst ht
  have hrow : ∀ t ∈ st.transitions, ∀ left width i, [] ≠ ascii.branch left width i t := by
    intro t ht left width i hnil
    rw [branch, row_ascii _ _ (htarget t ht)] at hnil
    exact (htarget t ht).ne_nil (List.append_eq_nil_iff.mp hnil.symm).2
  intro h
  rcases st.shape_cases with hts | ⟨t, hts, hu⟩ | ⟨hb, t, rest, hts⟩
  · rw [block_of_none hts, List.mem_singleton] at h
    exact absurd (List.append_eq_nil_iff.mp h.symm).2 (by decide)
  · have hname := htarget t (by simp [hts])
    rw [block_of_single hts hu, List.mem_singleton, hname.trimSpacesRight_append] at h
    exact hname.ne_nil (List.append_eq_nil_iff.mp h.symm).2
  · rw [block_of_branches hts hb, List.mem_cons, List.mem_map] at h
    rcases h with h | ⟨t', ht', h⟩
    · exact hrow t (by simp [hts]) _ _ _ h
    · exact hrow t' (by simp [hts, ht']) _ _ _ h.symm

end DiagramStyle

/-! ## Ends of lines -/

/-- **No row ends in a space**, whatever the symbols and the names. -/
theorem DiagramStyle.getLast?_of_mem_block {style : DiagramStyle} {nameWidth : Nat} {st : State}
    {line : Text} (h : line ∈ style.block nameWidth st) : line.getLast? ≠ some Text.space := by
  rcases st.shape_cases with hts | ⟨t, hts, hu⟩ | ⟨hb, t, rest, hts⟩
  · rw [block_of_none hts, List.mem_singleton] at h
    rw [h, List.getLast?_append_of_ne_nil _ (by decide)]
    decide
  · rw [block_of_single hts hu, List.mem_singleton] at h
    rw [h]
    exact Text.getLast?_trimSpacesRight _
  · rw [block_of_branches hts hb, List.mem_cons, List.mem_map] at h
    rcases h with rfl | ⟨t', -, rfl⟩
    · exact Text.getLast?_trimSpacesRight _
    · exact Text.getLast?_trimSpacesRight _

namespace Machine

theorem getLast?_of_mem_diagram {m : Machine} {style : DiagramStyle} {line : Text}
    (h : line ∈ m.diagram style) : line.getLast? ≠ some Text.space := by
  rw [diagram, List.mem_cons, List.mem_flatMap] at h
  rcases h with rfl | ⟨st, -, hline⟩
  · rw [List.getLast?_append_of_ne_nil _ (by decide)]
    decide
  · rcases List.mem_cons.mp hline with rfl | hline
    · simp
    · exact DiagramStyle.getLast?_of_mem_block hline

/-- Nothing is added to an empty line inside a comment, so it does not end in a space either. -/
theorem getLast?_of_mem_diagramComment {m : Machine} {style : DiagramStyle} {line : Text}
    (h : line ∈ m.diagramComment style) : line.getLast? ≠ some Text.space := by
  rw [diagramComment, List.mem_cons, List.mem_append, List.mem_map, List.mem_singleton] at h
  rcases h with rfl | ⟨content, hcontent, rfl⟩ | rfl
  · decide
  · rw [commentLine]
    split
    · decide
    · rename_i hne
      rw [List.getLast?_append_of_ne_nil _ hne]
      exact getLast?_of_mem_diagram hcontent
  · decide

end Machine

/-! ## An example -/

/-- A machine that has a block of each shape. -/
def shuttle : Machine :=
  ⟨[⟨"IDLE", "idle", [⟨.always, "RUN"⟩]⟩,
    ⟨"RUN", "run", [⟨⟨"done", true⟩, "RUN"⟩, ⟨.always, "IDLE"⟩]⟩,
    ⟨"HALT", "halt", []⟩], "IDLE"⟩

example : shuttle.diagram .ascii =
    (["state flow (start: IDLE)", [], "IDLE --> RUN", [], "RUN  +-- !done --> RUN",
      "     +-- else  --> IDLE", [], "HALT  (no transitions)"] : List Text) := by
  decide +kernel

theorem violations_shuttle : shuttle.violations = [] := by decide

end StateForge
