import StateForge.Proofs.Diagram.Rows
import StateForge.Proofs.Recovery

/-!
# Reading a diagram back

A diagram is for readers, who look at the words of a line and not at the spaces between them. This
file is such a reader: empty lines divide a diagram into blocks, the words of the first line of a
block tell which of the three shapes it has, and the label of a row tells its predicate.

* `Text.words` are the words of a line. Padding and trimming do not matter to them, so
  `DiagramStyle.words_branch` gives the words of a row whatever its widths are.
* `readBlock?` and `readDiagram?` are the reader. `Machine.readDiagram?_diagram` says that it gets
  back all that a diagram shows of an accepted machine: `State.drawn`.

That a label is never mistaken rests on validation. A predicate cannot be called `else`, which is a
reserved word. It can be called `always`, but a row has that label only for an unconditional
transition before others, and there is no such row in the diagram of an accepted machine.
-/

set_option autoImplicit false

namespace StateForge

/-! ## Words -/

namespace Text

/-- The words of a line: what stands between its spaces. -/
def words (s : Text) : List Text :=
  (List.splitOn space s).filter (· ≠ [])

theorem words_append_space (s t : Text) : words (s ++ " " ++ t) = words s ++ words t := by
  have hspace : s ++ " " ++ t = s ++ space :: t := by rw [List.append_assoc]; rfl
  rw [words, hspace, List.splitOn, List.splitOnP_append_cons s t (by simp), List.filter_append]
  rfl

theorem words_of_notMem {s : Text} (hne : s ≠ []) (hs : space ∉ s) : words s = [s] := by
  have hall : ∀ b ∈ s, (b == space) = false := by
    intro b hb
    exact beq_eq_false_iff_ne.mpr fun h => hs (h ▸ hb)
  rw [words, List.splitOn, List.splitOnP_eq_singleton hall]
  simp [hne]

theorem words_spaces (n : Nat) : words (spaces n) = [] := by
  induction n with
  | zero => rfl
  | succ n ih =>
    have hspaces : spaces (n + 1) = ([] : Text) ++ " " ++ spaces n := rfl
    rw [hspaces, words_append_space, ih]
    rfl

/-- Padding adds no words. -/
theorem words_padRight (s : Text) (n : Nat) : words (s.padRight n) = words s := by
  rw [padRight]
  cases n - s.width with
  | zero => rw [spaces, List.replicate_zero, List.append_nil]
  | succ k =>
    have hspaces : s ++ spaces (k + 1) = s ++ " " ++ spaces k := by
      rw [List.append_assoc]
      rfl
    rw [hspaces, words_append_space, words_spaces, List.append_nil]

theorem IsUsable.words_eq {w : Text} (h : w.IsUsable) : words w = [w] :=
  words_of_notMem h.ne_nil h.space_notMem

end Text

/-! ## What is drawn -/

/-- What a diagram shows of a transition: all of it, apart from a negation without a predicate. -/
def Transition.drawn (t : Transition) : Transition :=
  if t.isUnconditional then ⟨.always, t.target⟩ else t

/-- What a diagram shows of a state: its name and its transitions, but not its action. -/
def State.drawn (st : State) : Text × List Transition :=
  (st.name, st.transitions.map Transition.drawn)

namespace Transition

theorem isUnconditional_drawn (t : Transition) : t.drawn.isUnconditional = t.isUnconditional := by
  rw [drawn]
  split
  · rename_i hu
    rw [hu]
    rfl
  · rfl

theorem target_drawn (t : Transition) : t.drawn.target = t.target := by
  rw [drawn]
  split <;> rfl

theorem label_drawn (t : Transition) (i : Nat) : t.drawn.label i = t.label i := by
  cases hu : t.isUnconditional with
  | true => rw [label, label, isUnconditional_drawn, hu]; rfl
  | false => rw [drawn, if_neg (by simp [hu])]

theorem labels_drawn (ts : List Transition) (i : Nat) : labels i (ts.map drawn) = labels i ts := by
  induction ts generalizing i with
  | nil => rfl
  | cons t rest ih => rw [List.map_cons, labels, labels, label_drawn, ih]

end Transition

namespace DiagramStyle

theorem rows_drawn (style : DiagramStyle) (left indent : Text) (width : Nat) (texts : List Text)
    (ts : List Transition) :
    style.rows left indent width (texts.zip (ts.map Transition.drawn))
      = style.rows left indent width (texts.zip ts) := by
  induction ts generalizing left texts with
  | nil => rfl
  | cons t rest ih =>
    cases texts with
    | nil => rfl
    | cons text texts =>
      rw [List.map_cons, List.zip_cons_cons, List.zip_cons_cons, rows, rows, ih, t.target_drawn]

/-- **A block shows no more than what is drawn of its state.** -/
theorem block_drawn (style : DiagramStyle) (nameWidth : Nat) (st : State) (action : Text) :
    style.block nameWidth ⟨st.name, action, st.transitions.map Transition.drawn⟩
      = style.block nameWidth st := by
  simp only [block, Transition.labels_drawn, rows_drawn]
  rcases st.transitions with _ | ⟨t, _ | ⟨t', rest⟩⟩
  · rfl
  · simp only [List.map_cons, List.map_nil, t.isUnconditional_drawn, t.target_drawn]
  · rfl

end DiagramStyle

theorem Machine.diagram_congr {m m' : Machine} (hstart : m.start = m'.start)
    (hstates : m.states.map State.drawn = m'.states.map State.drawn) (style : DiagramStyle) :
    m.diagram style = m'.diagram style := by
  have hnames : m.stateNames = m'.stateNames := by
    have := congrArg (List.map Prod.fst) hstates
    rwa [List.map_map, List.map_map] at this
  have hblocks : ∀ states : List State, ∀ w,
      states.flatMap (fun st => [] :: style.block w st)
        = (states.map State.drawn).flatMap fun d => [] :: style.block w ⟨d.1, [], d.2⟩ := by
    intro states w
    rw [List.flatMap_map]
    congr 1
    funext st
    rw [State.drawn, style.block_drawn]
  rw [diagram, diagram, hstart, hnames, hblocks m.states, hblocks m'.states, hstates]

/-! ## The reader -/

/-- The predicate that a label stands for. -/
def Predicate.ofLabel (label : Text) : Predicate :=
  if label = "else" then always
  else if label.head? = some negationMark then ⟨label.tail, true⟩
  else ⟨label, false⟩

/-- The transition that is shown by the words of a row, from its junction on. -/
def Transition.ofWords? : List Text → Option Transition
  | [junction, label, arrow, target] =>
    if junction = DiagramStyle.ascii.junction ∧ arrow = DiagramStyle.ascii.arrow then
      some ⟨.ofLabel label, target⟩
    else none
  | _ => none

/-- The state that is shown by the words in the lines of a block. -/
def readBlock? : List (List Text) → Option (Text × List Transition)
  | [[name, second, third]] =>
    if second = DiagramStyle.ascii.arrow then some (name, [⟨.always, third⟩])
    else if second = "(no" ∧ third = "transitions)" then some (name, [])
    else none
  | (name :: first) :: rest => do
    let transitions ← (first :: rest).mapM Transition.ofWords?
    return (name, transitions)
  | _ => none

/-- The start that is shown by a title. -/
def readTitle? (title : Text) : Option Text :=
  (Text.cutPrefix? "state flow (start: " title).map List.dropLast

/-- The start and the states that are shown by a diagram, whose blocks are divided by empty
lines. -/
def readDiagram? (lines : List Text) : Option (Text × List (Text × List Transition)) :=
  match List.splitOn [] lines with
  | [title] :: blocks => do
    let start ← readTitle? title
    let states ← blocks.mapM fun block => readBlock? (block.map Text.words)
    return (start, states)
  | _ => none

/-! ## Labels -/

namespace Predicate

theorem written_ne_else {p : Predicate} (h : p.name.IsUsable) :
    p.written ≠ Text.ofString "else" := by
  rw [written]
  split
  · exact fun heq => absurd (List.cons.inj heq).1 (by decide)
  · intro heq
    exact h.unreserved (heq ▸ by decide)

/-- A label is read as the predicate that it was written for. -/
theorem ofLabel_written {p : Predicate} (h : p.name.IsUsable) : ofLabel p.written = p := by
  rw [ofLabel, if_neg (written_ne_else h)]
  obtain ⟨name, negated⟩ := p
  cases negated with
  | true => rfl
  | false =>
    have hmark : name.head? ≠ some negationMark := by
      intro hhead
      exact absurd (h.mem_part (List.mem_of_head? hhead)) (by decide)
    exact if_neg hmark

end Predicate

namespace Transition

/-- **A label is never mistaken**, unless it stands for an unconditional transition before
others. -/
theorem ofLabel_label {t : Transition} {i : Nat}
    (h : t.isUnconditional = false → t.predicate.name.IsUsable)
    (hplace : t.isUnconditional = true → i ≠ 0) : .ofLabel (t.label i) = t.drawn.predicate := by
  cases hu : t.isUnconditional with
  | true =>
    rw [label, drawn, hu, if_neg (by decide), if_neg (hplace hu)]
    rfl
  | false =>
    rw [label_of_conditional hu, Predicate.ofLabel_written (h hu), drawn, if_neg (by simp [hu])]

/-- A label is one word. -/
theorem words_label {t : Transition} (h : t.isUnconditional = false → t.predicate.name.IsUsable)
    (i : Nat) : Text.words (t.label i) = [t.label i] := by
  cases hu : t.isUnconditional with
  | true =>
    rw [label, hu, if_neg (by decide)]
    split
    · decide
    · decide
  | false =>
    rw [label_of_conditional hu, Predicate.written]
    split
    · refine Text.words_of_notMem (List.cons_ne_nil _ _) ?_
      rw [List.mem_cons, not_or]
      exact ⟨by decide, (h hu).space_notMem⟩
    · exact (h hu).words_eq

end Transition

/-! ## Blocks -/

/-- What is read from each element is read from all of them. -/
theorem mapM_map_eq_some {α β γ : Type} {read : β → Option γ} {show' : α → β} {view : α → γ}
    {l : List α} (h : ∀ a ∈ l, read (show' a) = some (view a)) :
    (l.map show').mapM read = some (l.map view) := by
  induction l with
  | nil => rfl
  | cons a rest ih =>
    obtain ⟨ha, hrest⟩ := List.forall_mem_cons.mp h
    rw [List.map_cons, List.mapM_cons, ha, ih hrest]
    rfl

namespace DiagramStyle

/-- The words of a row from its junction on. -/
def edgeWords (i : Nat) (t : Transition) : List Text :=
  [ascii.junction, t.label i, ascii.arrow, t.target]

variable {m : Machine} (hm : m.WellFormed) {st : State} (hst : st ∈ m.states)
include hm hst

/-- **The words of a row** do not depend on the widths of its parts. -/
theorem words_branch {t : Transition} (ht : t ∈ st.transitions) (left : Text) (width i : Nat) :
    Text.words (ascii.branch left width i t)
      = Text.words left ++ edgeWords i t := by
  have htarget := hm.isUsable_target hst ht
  have hjunction : Text.words ascii.junction = [ascii.junction] := by decide
  have harrow : Text.words ascii.arrow = [ascii.arrow] := by decide
  rw [branch, row_ascii _ _ htarget, Text.words_append_space, Text.words_append_space,
    Text.words_append_space, Text.words_append_space, hjunction, Text.words_padRight,
    Transition.words_label (hm.isUsable_predicate hst ht), harrow, htarget.words_eq]
  simp only [List.append_assoc]
  rfl

theorem ofWords?_edgeWords {t : Transition} (ht : t ∈ st.transitions) :
    Transition.ofWords? (edgeWords 1 t) = some t.drawn := by
  have hlabel := Transition.ofLabel_label (hm.isUsable_predicate hst ht) fun _ => Nat.one_ne_zero
  rw [edgeWords, Transition.ofWords?, if_pos ⟨rfl, rfl⟩, hlabel, ← t.target_drawn]

theorem words_name (nameWidth : Nat) :
    Text.words (st.name.padRight nameWidth) = [st.name] := by
  rw [Text.words_padRight, (hm.name st hst).words_eq]

theorem words_block_of_none (nameWidth : Nat) (hts : st.transitions = []) :
    (ascii.block nameWidth st).map Text.words = [[st.name, "(no", "transitions)"]] := by
  have hremark : st.name.padRight nameWidth ++ "  (no transitions)"
      = st.name.padRight nameWidth ++ " " ++ " (no transitions)" := by
    rw [List.append_assoc]
    rfl
  have hwords : Text.words " (no transitions)" = ["(no", "transitions)"] := by decide
  rw [block_of_none hts, List.map_singleton, hremark, Text.words_append_space,
    words_name hm hst, hwords]
  rfl

theorem words_block_of_single (nameWidth : Nat) {t : Transition} (hts : st.transitions = [t])
    (hu : t.isUnconditional = true) :
    (ascii.block nameWidth st).map Text.words = [[st.name, ascii.arrow, t.target]] := by
  have htarget := hm.isUsable_target hst (t := t) (by simp [hts])
  have harrow : Text.words ascii.arrow = [ascii.arrow] := by decide
  rw [block_of_single hts hu, htarget.trimSpacesRight_append, List.map_singleton,
    Text.words_append_space, Text.words_append_space, words_name hm hst, harrow, htarget.words_eq]
  rfl

/-- The first transition has a condition, so its label does not depend on its place either. -/
theorem words_block_of_branches (nameWidth : Nat) (hb : st.isBranching = true) {t : Transition}
    {rest : List Transition} (hts : st.transitions = t :: rest) :
    (ascii.block nameWidth st).map Text.words
      = (st.name :: edgeWords 1 t) :: rest.map (edgeWords 1) := by
  have hedge : edgeWords 0 t = edgeWords 1 t := by
    have hfirst := hm.conditional_of_isBranching hst hb hts
    rw [edgeWords, edgeWords, Transition.label_of_conditional hfirst,
      Transition.label_of_conditional hfirst]
  have hrest : (rest.map (ascii.branch (Text.spaces nameWidth) (labelWidth st) 1)).map Text.words
      = rest.map (edgeWords 1) := by
    rw [List.map_map]
    refine List.map_congr_left fun t' ht' => ?_
    rw [Function.comp_apply, words_branch hm hst (by simp [hts, ht']), Text.words_spaces,
      List.nil_append]
  rw [block_of_branches hts hb, List.map_cons, words_branch hm hst (by simp [hts]),
    words_name hm hst, hrest, hedge, List.singleton_append]

/-- **A block can be read back**, whatever its width. -/
theorem readBlock?_block (nameWidth : Nat) :
    readBlock? ((ascii.block nameWidth st).map Text.words) = some st.drawn := by
  rw [State.drawn]
  rcases st.shape_cases with hts | ⟨t, hts, hu⟩ | ⟨hb, t, rest, hts⟩
  · rw [words_block_of_none hm hst nameWidth hts, hts]
    rfl
  · rw [words_block_of_single hm hst nameWidth hts hu, hts, List.map_singleton, Transition.drawn,
      if_pos hu]
    rfl
  · have hread : (st.transitions.map (edgeWords 1)).mapM Transition.ofWords?
        = some (st.transitions.map Transition.drawn) :=
      mapM_map_eq_some fun t' ht' => ofWords?_edgeWords hm hst ht'
    rw [hts, List.map_cons] at hread
    rw [words_block_of_branches hm hst nameWidth hb hts, readBlock?, hread, hts]
    · rfl
    · simp [edgeWords]

end DiagramStyle

/-! ## Diagrams -/

theorem splitOn_of_notMem {lines : List Text} (h : [] ∉ lines) :
    List.splitOn [] lines = [lines] := by
  refine List.splitOnP_eq_singleton fun line hline => ?_
  exact beq_eq_false_iff_ne.mpr fun hnil => h (hnil ▸ hline)

/-- Empty lines divide a diagram into what leads and its blocks. -/
theorem splitOn_blocks {α : Type} {block : α → List Text} {l : List α}
    (hblock : ∀ a ∈ l, [] ∉ block a) {lead : List Text} (hlead : [] ∉ lead) :
    List.splitOn [] (lead ++ l.flatMap fun a => [] :: block a) = lead :: l.map block := by
  induction l generalizing lead with
  | nil => rw [List.flatMap_nil, List.append_nil, splitOn_of_notMem hlead, List.map_nil]
  | cons a rest ih =>
    obtain ⟨ha, hrest⟩ := List.forall_mem_cons.mp hblock
    rw [List.flatMap_cons, List.cons_append, List.splitOn, List.splitOnP_append_cons _ _ (by simp),
      ← List.splitOn, ← List.splitOn, splitOn_of_notMem hlead, ih hrest ha, List.singleton_append,
      List.map_cons]

theorem readTitle?_title (start : Text) :
    readTitle? ("state flow (start: " ++ start ++ ")") = some start := by
  have hcut : Text.cutPrefix? "state flow (start: " ("state flow (start: " ++ start ++ ")")
      = some (start ++ ")") := by
    rw [List.append_assoc, Text.cutPrefix?_append]
  have hlast : (start ++ Text.ofString ")").dropLast = start := List.dropLast_concat
  rw [readTitle?, hcut, Option.map_some, hlast]

/-- **A diagram can be read back**: the start of the machine, and what is drawn of its states. -/
theorem Machine.readDiagram?_diagram {m : Machine} (hm : m.WellFormed) :
    readDiagram? (m.diagram .ascii) = some (m.start, m.states.map State.drawn) := by
  have htitle : [] ∉ [("state flow (start: " ++ m.start ++ ")")] := by
    rw [List.mem_singleton]
    exact fun h => absurd (List.append_eq_nil_iff.mp h.symm).2 (by decide)
  have hsplit : List.splitOn [] (m.diagram .ascii)
      = [("state flow (start: " ++ m.start ++ ")")] ::
          m.states.map (DiagramStyle.ascii.block (Text.maxWidth m.stateNames)) :=
    splitOn_blocks (fun _ hst => DiagramStyle.nil_notMem_block hm hst) htitle
  have hblocks : (m.states.map (DiagramStyle.ascii.block (Text.maxWidth m.stateNames))).mapM
      (fun block => readBlock? (block.map Text.words)) = some (m.states.map State.drawn) :=
    mapM_map_eq_some fun st hst => DiagramStyle.readBlock?_block hm hst _
  rw [readDiagram?, hsplit]
  simp only [readTitle?_title, hblocks]
  rfl

/-- **A diagram shows the machine.** Two machines without violations have the same diagram exactly if
they have the same start, the same names of states in the same order, and for each state the same
transitions, with their predicates, negations and targets. Two things are not shown: actions, and a
negation that has no predicate, which has no effect. -/
theorem diagram_eq_iff {m m' : Machine} (hv : m.violations = []) (hv' : m'.violations = []) :
    m.diagram .ascii = m'.diagram .ascii ↔
      m.start = m'.start ∧ m.stateNames = m'.stateNames ∧
      m.states.map (fun st => st.transitions.map Transition.drawn)
        = m'.states.map (fun st => st.transitions.map Transition.drawn) := by
  constructor
  · intro h
    have hread := congrArg readDiagram? h
    rw [Machine.readDiagram?_diagram ((Machine.violations_eq_nil_iff _).mp hv),
      Machine.readDiagram?_diagram ((Machine.violations_eq_nil_iff _).mp hv'), Option.some.injEq,
      Prod.mk.injEq] at hread
    obtain ⟨hstart, hstates⟩ := hread
    have hnames := congrArg (List.map Prod.fst) hstates
    have htransitions := congrArg (List.map Prod.snd) hstates
    rw [List.map_map, List.map_map] at hnames htransitions
    exact ⟨hstart, hnames, htransitions⟩
  · rintro ⟨hstart, hnames, htransitions⟩
    exact Machine.diagram_congr hstart (Machine.map_prod_eq hnames htransitions) .ascii

/-- A machine with one state and one transition, which leads back. -/
def circle (p : Predicate) : Machine :=
  ⟨[⟨"A", "act", [⟨p, "A"⟩]⟩], "A"⟩

/-- A predicate may be called like the label of an unconditional transition: the diagrams differ. -/
theorem circle_always_distinguished :
    (circle ⟨"always", false⟩).violations = [] ∧ (circle .always).violations = [] ∧
    (circle ⟨"always", false⟩).diagram .ascii ≠ (circle .always).diagram .ascii := by
  have hv : (circle ⟨"always", false⟩).violations = [] := by decide
  have hv' : (circle .always).violations = [] := by decide
  refine ⟨hv, hv', fun h => ?_⟩
  exact absurd ((diagram_eq_iff hv hv').mp h).2.2 (by decide)

/-- **A negation without a predicate is not shown**: two machines that differ in nothing else, and
that are put together and accepted like all others, have the same diagram. -/
theorem unnamed_negation_not_shown :
    ∃ (m m' : Machine) (start start' : Text) (states states' : List State),
      Machine.make start states = .ok m ∧ Machine.make start' states' = .ok m' ∧
      m.violations = [] ∧ m'.violations = [] ∧ m.diagram .ascii = m'.diagram .ascii ∧
      m.states.map (fun st => st.transitions.map fun t => t.predicate.negated)
        ≠ m'.states.map (fun st => st.transitions.map fun t => t.predicate.negated) :=
  ⟨circle ⟨[], true⟩, circle ⟨[], false⟩, "A", "A", (circle ⟨[], true⟩).states,
    (circle ⟨[], false⟩).states, rfl, rfl, by decide, by decide, by decide +kernel, by decide⟩

end StateForge
