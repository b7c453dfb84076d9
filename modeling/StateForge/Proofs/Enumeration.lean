import StateForge.Proofs.Declarations

/-!
# The states in a header and in its implementation

A header lists the states once, in its enumeration. An implementation lists them twice more, as the
labels of its two functions, and refers to them where it starts and where it moves on. All these
come from separate walks over the machine.

`AgreeOnStates` says of two lists of lines that they agree on the states: the line of the
enumeration is taken apart at its separators (`Text.pieces`), and the implementation is read as
code.
`header_agrees_implementation` says that generated sources do agree, whatever their layout.
-/

set_option autoImplicit false

namespace StateForge

open Fragment

/-! ## Pieces of a text -/

namespace Text

/-- The pieces between the occurrences of a separator, which are taken from the left and do not
overlap. The number says how many bytes are left of an occurrence that was found. -/
def piecesFrom (sep : Text) : Nat → Text → List Text
  | _, [] => [[]]
  | n + 1, _ :: rest => piecesFrom sep n rest
  | 0, b :: rest =>
    if sep.isPrefixOf (b :: rest) then [] :: piecesFrom sep (sep.length - 1) rest
    else (piecesFrom sep 0 rest).modifyHead (b :: ·)

/-- The pieces of a text between the occurrences of a separator. -/
def pieces (sep s : Text) : List Text :=
  piecesFrom sep 0 s

theorem piecesFrom_length_append (sep skipped s : Text) :
    piecesFrom sep skipped.length (skipped ++ s) = pieces sep s := by
  induction skipped with
  | nil => rfl
  | cons b rest ih => rw [List.cons_append, List.length_cons, piecesFrom, ih]

variable {first : UInt8} {more : Text}

/-- A byte with which the separator does not begin belongs to the first piece. -/
theorem pieces_cons_of_ne {b : UInt8} (hb : b ≠ first) (s : Text) :
    pieces (first :: more) (b :: s) = (pieces (first :: more) s).modifyHead (b :: ·) := by
  have hpre : ¬ List.isPrefixOf (first :: more) (b :: s) = true := by
    rw [List.isPrefixOf_iff_prefix, List.cons_prefix_cons]
    exact fun h => hb h.1.symm
  rw [pieces, piecesFrom, if_neg hpre]
  rfl

theorem pieces_of_not_mem {s : Text} (hs : first ∉ s) : pieces (first :: more) s = [s] := by
  induction s with
  | nil => rfl
  | cons b s ih =>
    rw [pieces_cons_of_ne (List.ne_of_not_mem_cons hs).symm, ih (List.not_mem_of_not_mem_cons hs)]
    rfl

/-- What stands before the first separator is the first piece. -/
theorem pieces_append {piece : Text} (hpiece : first ∉ piece) (s : Text) :
    pieces (first :: more) (piece ++ (first :: more ++ s))
      = piece :: pieces (first :: more) s := by
  induction piece with
  | nil =>
    have hpre : List.isPrefixOf (first :: more) (first :: (more ++ s)) = true :=
      List.isPrefixOf_iff_prefix.mpr ⟨s, rfl⟩
    rw [List.nil_append, List.cons_append, pieces, piecesFrom, if_pos hpre, List.length_cons,
      Nat.add_sub_cancel, piecesFrom_length_append]
  | cons b piece ih =>
    rw [List.cons_append, pieces_cons_of_ne (List.ne_of_not_mem_cons hpiece).symm,
      ih (List.not_mem_of_not_mem_cons hpiece)]
    rfl

/-- **Joined pieces are found again**, if the separator begins with a byte that they do not have. -/
theorem pieces_intercalate {names : List Text} (hne : names ≠ [])
    (hnames : ∀ name ∈ names, first ∉ name) :
    pieces (first :: more) ((first :: more).intercalate names) = names := by
  induction names with
  | nil => exact absurd rfl hne
  | cons name names ih =>
    have hname := hnames name List.mem_cons_self
    cases names with
    | nil => rw [List.intercalate_singleton, pieces_of_not_mem hname]
    | cons next names =>
      rw [List.intercalate_cons_cons, List.append_assoc, pieces_append hname,
        ih (List.cons_ne_nil _ _) fun n hn => hnames n (List.mem_cons_of_mem _ hn)]

end Text

/-! ## Headers -/

/-- The line above the enumeration of the states. -/
def enumOpening : Text := "enum State \x7b"

/-- The enumeration of a header, without its indentation, consists of these names. -/
def Enumerates (header names : List Text) : Prop :=
  ∃ before line after, header = before ++ enumOpening :: ("\t" ++ line) :: after ∧
    enumOpening ∉ before ∧ enumOpening ∉ after ∧ Text.pieces ", " line = names

theorem Machine.noneDeclares_diagramComment (m : Machine) (style : DiagramStyle) :
    NoneDeclares (m.diagramComment style) := by
  have hlines : NoneDeclares ((m.diagram style).map commentLine) := by
    intro line hline
    obtain ⟨content, -, rfl⟩ := List.mem_map.mp hline
    have hspace : (commentLine content).head? = some 0x20 := by
      rw [commentLine]
      split <;> rfl
    rw [hspace]
    decide
  exact .cons (some 0x2f) rfl (by decide) (hlines.append (by decide))

/-- The comma does not stand in a name, so the enumeration can be taken apart again. -/
theorem Machine.WellFormed.pieces_stateNames {m : Machine} (hm : m.WellFormed) :
    Text.pieces ", " ((Text.ofString ", ").intercalate m.stateNames) = m.stateNames := by
  refine Text.pieces_intercalate (List.ne_nil_of_mem hm.start) fun name hname hcomma => ?_
  have hpart := (hm.isUsable_of_mem hname).mem_part hcomma
  exact absurd hpart (by decide)

/-- **A header enumerates the states of its machine**, with or without a diagram. -/
theorem SourceLayout.enumerates_header (layout : SourceLayout) {m : Machine} (hm : m.WellFormed) :
    Enumerates (layout.header m) m.stateNames := by
  have hguard : NoneDeclares layout.guardLines :=
    .cons (some 0x23) rfl (by decide) (.cons (some 0x23) rfl (by decide) (.blank .nil))
  have hdiagram :
      NoneDeclares (if layout.diagram then m.diagramComment .ascii ++ [[]] else []) := by
    split
    · exact (m.noneDeclares_diagramComment .ascii).append (.blank .nil)
    · exact .nil
  have hcomment : NoneDeclares ["// definition of state values"] := by decide
  -- lines before the enumeration do not begin like its opening; those after it are fixed
  refine ⟨_, _, m.headerBody.drop 3, ?_,
    fun h => (hguard.append hdiagram).append hcomment _ h rfl, ?_, hm.pieces_stateNames⟩
  · rw [header, List.append_assoc, List.append_assoc _ _ (enumOpening :: _), List.append_assoc]
    rfl
  · simp only [Machine.headerBody, List.drop_succ_cons, List.drop_zero]
    decide

/-! ## Implementations -/

namespace Machine

theorem switches_runBody (m : Machine) : m.runBody.switches = [m.stateNames] := by
  have hcases : (m.states.flatMap State.runStatements).filterMap Statement.labels? = [] := by
    rw [List.filterMap_flatMap]
    exact List.flatMap_eq_nil_iff.mpr fun _ _ => rfl
  rw [Code.switches, statements_runBody, List.filterMap_cons, hcases]
  rfl

theorem switches_transitionBody (m : Machine) : m.transitionBody.switches = [m.stateNames] := by
  have hchoice : ∀ t : Transition, t.statements.filterMap Statement.labels? = [] := by
    intro t
    rw [Transition.statements]
    split <;> rfl
  have hcases : (m.states.flatMap fun st => (Transition.reached st.transitions).flatMap fun t =>
      t.statements.filterMap Statement.labels?) = [] :=
    List.flatMap_eq_nil_iff.mpr fun _ _ => List.flatMap_eq_nil_iff.mpr fun t _ => hchoice t
  rw [Code.switches, m.filterMap_transitionBody (fun _ => rfl) rfl, hcases]
  rfl

/-- What the next state can be are the targets of the transitions that are reached. -/
theorem assigned_transitionBody (m : Machine) :
    m.transitionBody.assigned nextVariable
      = m.states.flatMap fun st =>
          (Transition.reached st.transitions).map fun t => .operand (.name t.target) := by
  have hchoice : ∀ t : Transition, t.statements.filterMap (Statement.assigned? nextVariable)
      = [.operand (.name t.target)] := by
    intro t
    rw [Transition.statements]
    split <;> rfl
  have hcommit : commit.statements.filterMap (Statement.assigned? nextVariable) = [] := rfl
  rw [Code.assigned, m.filterMap_transitionBody (fun _ => rfl) rfl, hcommit, List.append_nil]
  simp only [hchoice, List.map_eq_flatMap]
  rfl

/-- **An accepted machine only moves on to its own states.** -/
theorem WellFormed.exists_of_mem_assigned {m : Machine} (hm : m.WellFormed) {e : Expr}
    (he : e ∈ m.transitionBody.assigned nextVariable) :
    ∃ name ∈ m.stateNames, e = .operand (.name name) := by
  rw [assigned_transitionBody] at he
  obtain ⟨st, hst, he⟩ := List.mem_flatMap.mp he
  rw [Transition.reached_eq_self (hm.conditional hst)] at he
  obtain ⟨t, ht, rfl⟩ := List.mem_map.mp he
  exact ⟨t.target, hm.target st hst t ht, rfl⟩

end Machine

/-- A header and an implementation have the same states. -/
structure AgreeOnStates (names header implementation : List Text) : Prop where
  nodup : names.Nodup
  enumerates : Enumerates header names
  /-- The two functions have a case for each state, and what they start from and move on to are
  states. -/
  covers : ∃ source run transition start,
    parse implementation = some source ∧
    function? source runName = some ([], run) ∧
    function? source transitionName = some ([Machine.nextLocal], transition) ∧
    run.switches = [names] ∧
    transition.switches = [names] ∧
    globals source = [(stateTag, currentVariable, start)] ∧
    start ∈ names ∧
    ∀ e ∈ transition.assigned nextVariable, ∃ name ∈ names, e = .operand (.name name)

/-- **A header and its implementation agree on the states.** For every machine that is put together
from its states and accepted by validation, and for every layout, the enumeration of the header has
the names of the states in their order and without repetition, the labels of both functions are the
same names in the same order, and the start and everything that is assigned to the next state is one
of them. -/
theorem header_agrees_implementation (layout : SourceLayout) {start : Text} {states : List State}
    {m : Machine} (hmake : Machine.make start states = .ok m) (hv : m.violations = []) :
    AgreeOnStates (states.map State.name) (layout.header m) (layout.implementation m) := by
  have hm := (Machine.violations_eq_nil_iff _).mp hv
  have hnodup := Machine.nodup_of_make hmake
  obtain rfl := Machine.states_of_make hmake
  exact {
    nodup := hnodup
    enumerates := layout.enumerates_header hm
    covers := ⟨_, _, _, _, layout.parse_implementation hm, Machine.function?_program _ runName,
      Machine.function?_program _ transitionName, Machine.switches_runBody _,
      Machine.switches_transitionBody _, Machine.globals_program _, hm.start,
      fun _ he => hm.exists_of_mem_assigned he⟩ }

/-- The sources of the light, with a diagram in the header. -/
theorem lamp_agrees :
    Machine.make "OFF" lamp.states = .ok lamp ∧ lamp.violations = [] ∧
    AgreeOnStates ["OFF", "ON", "DEAD"] (SourceLayout.header ⟨"lamp", "lib.h", true⟩ lamp)
      (SourceLayout.implementation ⟨"lamp", "lib.h", true⟩ lamp) := by
  have hmake : Machine.make "OFF" lamp.states = .ok lamp := rfl
  exact ⟨hmake, violations_lamp,
    header_agrees_implementation ⟨"lamp", "lib.h", true⟩ hmake violations_lamp⟩

end StateForge
