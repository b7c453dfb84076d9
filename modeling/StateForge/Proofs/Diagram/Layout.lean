import StateForge.Proofs.Diagram.Rows
import Mathlib.Data.List.Forall2

/-!
# The layout of a diagram

The rows of a diagram line up: all junctions stand in one column, and so do the arrows of one state.
Rows are put together from padded pieces, so this rests on two facts about widths. A text of visible
bytes takes as many columns as it has bytes (`Text.width_of_visible`), although widths are measured
by clusters of characters, and a piece that is padded to the widest of its kind has that width
(`Text.isCell_padRight`).

* `Text.column?` is the column in which a mark begins. `Text.before?_append` finds it by one byte of
  the mark that stands nowhere before.
* `State.IsAligned` says how the block of a state is laid out in a diagram, and
  `Machine.IsAligned` says it of the whole diagram.
-/

set_option autoImplicit false

namespace StateForge

/-! ## Widths -/

/-- A unit that is a cluster of its own and takes one column. -/
structure ClusterUnit.IsSimple (u : ClusterUnit) : Prop where
  cls : u.cls = .other
  cutShort : u.cutShort = false
  width : charWidth u.shown = 1

theorem isDiagramByte_bounds {b : UInt8} (h : isDiagramByte b = true) :
    0x20 ≤ b.toNat ∧ b.toNat < 0x7f := by
  rw [isDiagramByte, Bool.and_eq_true, Bool.and_eq_true, decide_eq_true_eq, decide_eq_true_eq,
    UInt8.le_iff_toNat_le, UInt8.le_iff_toNat_le] at h
  exact ⟨h.1.1, Nat.lt_succ_of_le h.1.2⟩

theorem isSimple_of_isDiagramByte {b : UInt8} (h : isDiagramByte b = true) :
    (ClusterUnit.ofChar (Char.ofNat b.toNat)).IsSimple := by
  have hall : ∀ n < 0x7f, 0x20 ≤ n →
      ClusterClass.ofCode (Char.ofNat n).toNat = .other ∧ charWidth (Char.ofNat n) = 1 := by
    decide +kernel
  obtain ⟨hlow, hhigh⟩ := isDiagramByte_bounds h
  obtain ⟨hcls, hwidth⟩ := hall b.toNat hhigh hlow
  exact ⟨hcls, rfl, hwidth⟩

/-- Simple units are cut apart everywhere. -/
theorem cutClusters_of_simple {units : List ClusterUnit} (h : ∀ u ∈ units, u.IsSimple)
    {ctx : ClusterContext} (hctx : ctx.last = .other) (current : List ClusterUnit) :
    cutClusters ctx current units = current.reverse :: units.map fun u => [u] := by
  induction units generalizing ctx current with
  | nil => rfl
  | cons u rest ih =>
    obtain ⟨hu, hrest⟩ := List.forall_mem_cons.mp h
    have hjoins : ctx.joins u = false := by
      simp [ClusterContext.joins, hctx, hu.cls, hu.cutShort, ClusterContext.isBreaker]
    rw [cutClusters, hjoins, if_neg Bool.false_ne_true, ih hrest hu.cls]
    rfl

/-- Simple units take a column each. -/
theorem foldl_clusterWidth_of_simple {units : List ClusterUnit} (h : ∀ u ∈ units, u.IsSimple)
    (n : Nat) :
    (units.map fun u => [u]).foldl (fun columns cluster => columns + clusterWidth cluster) n
      = n + units.length := by
  induction units generalizing n with
  | nil => rfl
  | cons u rest ih =>
    obtain ⟨hu, hrest⟩ := List.forall_mem_cons.mp h
    have hone : clusterWidth [u] = 1 := by simp [clusterWidth, hu.width]
    rw [List.map_cons, List.foldl_cons, hone, ih hrest, List.length_cons]
    omega

namespace Text

theorem clusterUnits_of_visible {s : Text} (h : s.Over isDiagramByte) :
    s.clusterUnits = s.map fun b => .ofChar (Char.ofNat b.toNat) := by
  induction s with
  | nil => rfl
  | cons b rest ih =>
    have hb : b < 0x80 := by
      have hbounds := isDiagramByte_bounds (h b List.mem_cons_self)
      exact UInt8.lt_iff_toNat_lt.mpr (Nat.lt_trans hbounds.2 (by decide))
    rw [clusterUnits.eq_def, List.map_cons, ← ih fun c hc => h c (List.mem_cons_of_mem _ hc)]
    exact if_pos hb

/-- **A text of visible bytes is as wide as it is long.** -/
theorem width_of_visible {s : Text} (h : s.Over isDiagramByte) : s.width = s.length := by
  have hsimple : ∀ u ∈ s.clusterUnits, u.IsSimple := by
    rw [clusterUnits_of_visible h]
    intro u hu
    obtain ⟨b, hb, rfl⟩ := List.mem_map.mp hu
    exact isSimple_of_isDiagramByte (h b hb)
  have hclusters : s.clusters = s.clusterUnits.map fun u => [u] := by
    rw [clusters]
    cases hunits : s.clusterUnits with
    | nil => rfl
    | cons u rest =>
      rw [hunits] at hsimple
      obtain ⟨hu, hrest⟩ := List.forall_mem_cons.mp hsimple
      exact cutClusters_of_simple hrest hu.cls [u]
  rw [width, hclusters, foldl_clusterWidth_of_simple hsimple, clusterUnits_of_visible h,
    List.length_map, Nat.zero_add]

/-- No text is wider than the widest one. -/
theorem width_le_maxWidth {s : Text} {texts : List Text} (h : s ∈ texts) :
    s.width ≤ maxWidth texts := by
  have hfold : ∀ (texts : List Text) (w : Nat), s ∈ texts ∨ s.width ≤ w →
      s.width ≤ texts.foldl (fun w s => max w s.width) w := by
    intro texts
    induction texts with
    | nil =>
      rintro w (h | h)
      · cases h
      · exact h
    | cons t rest ih =>
      intro w h
      refine ih _ ?_
      rcases h with h | h
      · rcases List.mem_cons.mp h with rfl | h
        · exact .inr (Nat.le_max_right _ _)
        · exact .inl h
      · exact .inr (Nat.le_trans h (Nat.le_max_left _ _))
  exact hfold texts 0 (.inl h)

/-! ## Columns -/

/-- What stands before the first occurrence of a mark. -/
def before? (mark : Text) : Text → Option Text
  | [] => if mark = [] then some [] else none
  | b :: rest =>
    if mark.isPrefixOf (b :: rest) then some [] else (before? mark rest).map (b :: ·)

/-- The column in which the first occurrence of a mark begins. -/
def column? (mark s : Text) : Option Nat :=
  (before? mark s).map width

theorem before?_of_notMem {mark s : Text} {key : UInt8} (hmark : key ∈ mark) (hs : key ∉ s) :
    before? mark s = none := by
  induction s with
  | nil => exact if_neg (List.ne_nil_of_mem hmark)
  | cons b rest ih =>
    have hpre : ¬ mark.isPrefixOf (b :: rest) = true :=
      fun h => hs ((List.isPrefixOf_iff_prefix.mp h).subset hmark)
    rw [before?, if_neg hpre, ih (List.not_mem_of_not_mem_cons hs), Option.map_none]

/-- **A mark begins where its key byte says.** If a byte of the mark stands neither in what comes
before the mark nor earlier in the mark itself, then there is no earlier occurrence. -/
theorem before?_append {key : UInt8} {s : Text} (hs : key ∉ s) (lead tail : Text)
    (hlead : key ∉ lead) (rest : Text) :
    before? (lead ++ key :: tail) (s ++ (lead ++ key :: tail ++ rest)) = some s := by
  induction s with
  | nil =>
    obtain ⟨b, more, hmark⟩ := List.exists_cons_of_ne_nil (List.append_ne_nil_of_right_ne_nil lead
      (List.cons_ne_nil key tail))
    have hpre : List.isPrefixOf (b :: more) (b :: more ++ rest) = true :=
      List.isPrefixOf_iff_prefix.mpr (List.prefix_append _ _)
    rw [hmark, List.nil_append, List.cons_append, before?]
    exact if_pos hpre
  | cons b s ih =>
    have hpre : ¬ List.isPrefixOf (lead ++ key :: tail) (b :: (s ++ (lead ++ key :: tail ++ rest)))
        = true := by
      intro h
      have hmark : lead ++ [key] <+: b :: s ++ lead ++ (key :: tail ++ rest) := by
        rw [List.append_assoc (b :: s), ← List.append_assoc lead]
        exact List.IsPrefix.trans ⟨tail, by simp⟩ (List.isPrefixOf_iff_prefix.mp h)
      -- an occurrence here would have the key where there is still a part of `b :: s ++ lead`
      have hshort : lead ++ [key] <+: b :: s ++ lead :=
        List.prefix_of_prefix_length_le hmark (List.prefix_append _ _) (by simp)
      rcases List.mem_append.mp (hshort.subset (by simp : key ∈ lead ++ [key])) with hmem | hmem
      · exact hs hmem
      · exact hlead hmem
    rw [List.cons_append, before?, if_neg hpre, ih (List.not_mem_of_not_mem_cons hs),
      Option.map_some]

end Text

/-! ## Padded pieces -/

/-- The bytes of names, labels and padding. -/
def isCellByte (b : UInt8) : Bool :=
  isIdentifierPart b || b == Text.space || b == Predicate.negationMark

theorem isDiagramByte_of_isCellByte (b : UInt8) (h : isCellByte b = true) :
    isDiagramByte b = true := by
  rw [isCellByte, Bool.or_eq_true, Bool.or_eq_true, beq_iff_eq, beq_iff_eq] at h
  rcases h with (h | rfl) | rfl
  · exact isDiagramByte_of_isIdentifierPart b h
  · decide
  · decide

namespace Text

theorem IsUsable.over_cell {w : Text} (h : w.IsUsable) : w.Over isCellByte := by
  intro b hb
  rw [isCellByte, h.mem_part hb, Bool.true_or, Bool.true_or]

/-- A text with the bytes of a cell that has a given width. -/
structure IsCell (width : Nat) (s : Text) : Prop where
  bytes : s.Over isCellByte
  length_eq : s.length = width

/-- **Padding makes a cell** of every text that fits. -/
theorem isCell_padRight {s : Text} (hs : s.Over isCellByte) {n : Nat} (h : s.width ≤ n) :
    (s.padRight n).IsCell n := by
  refine ⟨hs.padRight (by decide) n, ?_⟩
  rw [width_of_visible (hs.imp isDiagramByte_of_isCellByte)] at h
  rw [padRight, List.length_append, spaces, List.length_replicate,
    width_of_visible (hs.imp isDiagramByte_of_isCellByte)]
  omega

theorem isCell_spaces (n : Nat) : (spaces n).IsCell n :=
  ⟨over_spaces (by decide) n, List.length_replicate⟩

end Text

theorem Transition.over_cell_label {t : Transition}
    (h : t.isUnconditional = false → t.predicate.name.IsUsable) (i : Nat) :
    (t.label i).Over isCellByte := by
  cases hu : t.isUnconditional with
  | false =>
    rw [label_of_conditional hu, Predicate.written]
    have hmark : Text.Over isCellByte [Predicate.negationMark] := by decide
    split
    · exact hmark.append (h hu).over_cell
    · exact (h hu).over_cell
  | true =>
    rw [label, hu, if_neg (by decide)]
    split
    · decide
    · decide

/-! ## Rows -/

namespace DiagramStyle

/-- The first junction is known by its plus sign. -/
theorem column?_junction {s : Text} (hvisible : s.Over isDiagramByte) (hs : 0x2b ∉ s)
    (rest : Text) : Text.column? ascii.junction (s ++ ascii.junction ++ rest) = some s.length := by
  have hbefore : Text.before? ascii.junction (s ++ (ascii.junction ++ rest)) = some s :=
    Text.before?_append hs [] [0x2d, 0x2d] List.not_mem_nil rest
  rw [List.append_assoc, Text.column?, hbefore, Option.map_some, Text.width_of_visible hvisible]

/-- The first arrow is known by its head. -/
theorem column?_arrow {s : Text} (hvisible : s.Over isDiagramByte) (hs : 0x3e ∉ s)
    (rest : Text) : Text.column? ascii.arrow (s ++ ascii.arrow ++ rest) = some s.length := by
  have hbefore : Text.before? ascii.arrow (s ++ (ascii.arrow ++ rest)) = some s :=
    Text.before?_append hs [0x2d, 0x2d] [] (by decide) rest
  rw [List.append_assoc, Text.column?, hbefore, Option.map_some, Text.width_of_visible hvisible]

/-- **Where the marks of a row stand** depends on the widths of its cells alone. -/
theorem columns_row {n k : Nat} {left label target : Text} (hleft : left.IsCell n)
    (hlabel : label.IsCell k) (htarget : target.IsUsable) :
    Text.column? ascii.junction (ascii.row left label target) = some (n + 1) ∧
    Text.column? ascii.arrow (ascii.row left label target) = some (n + k + 6) := by
  have hspace : Text.Over isDiagramByte " " := by decide
  have hjunction : Text.Over isDiagramByte ascii.junction := by decide
  have hleft' := hleft.bytes.imp isDiagramByte_of_isCellByte
  have hlabel' := hlabel.bytes.imp isDiagramByte_of_isCellByte
  rw [row_ascii left label htarget]
  constructor
  · have hplus : 0x2b ∉ left ++ " " :=
      (hleft.bytes.append (by decide)).notMem (by decide : isCellByte 0x2b = false)
    have hcolumn := column?_junction (hleft'.append hspace) hplus
      (" " ++ label ++ " " ++ ascii.arrow ++ " " ++ target)
    rw [List.length_append, hleft.length_eq] at hcolumn
    simp only [List.append_assoc] at hcolumn ⊢
    exact hcolumn
  · have hhead : 0x3e ∉ left ++ " " ++ ascii.junction ++ " " ++ label ++ " " := by
      simp only [List.mem_append, not_or]
      exact ⟨⟨⟨⟨⟨hleft.bytes.notMem (by decide), by decide⟩, by decide⟩, by decide⟩,
        hlabel.bytes.notMem (by decide)⟩, by decide⟩
    have hcolumn := column?_arrow
      (((((hleft'.append hspace).append hjunction).append hspace).append hlabel').append hspace)
      hhead (" " ++ target)
    have hone : (Text.ofString " ").length = 1 := rfl
    have hthree : ascii.junction.length = 3 := rfl
    simp only [List.length_append, hleft.length_eq, hlabel.length_eq, hone, hthree] at hcolumn
    rw [List.append_assoc _ _ target, hcolumn]
    congr 1
    omega

theorem prefix_row (left label : Text) {target : Text} (htarget : target.IsUsable) :
    left <+: ascii.row left label target := by
  rw [row_ascii left label htarget]
  simp only [List.append_assoc]
  exact List.prefix_append _ _

end DiagramStyle

/-! ## Blocks -/

/-- How the block of a state is laid out in a diagram whose names have a common width. -/
structure State.IsAligned (st : State) (nameWidth : Nat) (block : List Text) : Prop where
  /-- There is a row for each transition, and at least one. -/
  length_eq : block.length = max 1 st.transitions.length
  /-- The rows are told from the empty lines between blocks. -/
  nil_notMem : [] ∉ block
  name_fits : (st.name.padRight nameWidth).length = nameWidth
  first : ∀ row ∈ block.head?, st.name.padRight nameWidth <+: row
  others : ∀ row ∈ block.tail, Text.spaces nameWidth <+: row
  /-- Junctions stand in the column after the names. -/
  junction : ∀ row ∈ block, Text.column? DiagramStyle.ascii.junction row
    = if st.isBranching then some (nameWidth + 1) else none
  arrow : ∃ column, ∀ row ∈ block, Text.column? DiagramStyle.ascii.arrow row
    = if st.transitions = [] then none else some column

namespace DiagramStyle

variable {m : Machine} (hm : m.WellFormed) {st : State} (hst : st ∈ m.states) {nameWidth : Nat}
  (hwidth : st.name.width ≤ nameWidth)
include hm hst

/-- The row of a transition, with what stands on its left. -/
theorem branch_aligned {left : Text} (hleft : left.IsCell nameWidth) {t : Transition} {i : Nat}
    (ht : t ∈ st.transitions) (hlabel : t.label i ∈ Transition.labels 0 st.transitions) :
    left <+: ascii.branch left (labelWidth st) i t ∧
    Text.column? ascii.junction (ascii.branch left (labelWidth st) i t) = some (nameWidth + 1) ∧
    Text.column? ascii.arrow (ascii.branch left (labelWidth st) i t)
      = some (nameWidth + labelWidth st + 6) := by
  have htarget := hm.isUsable_target hst ht
  have hcell := Text.isCell_padRight (Transition.over_cell_label (hm.isUsable_predicate hst ht) i)
    (Text.width_le_maxWidth hlabel)
  exact ⟨prefix_row left _ htarget, columns_row hleft hcell htarget⟩

include hwidth

theorem isCell_name : (st.name.padRight nameWidth).IsCell nameWidth :=
  Text.isCell_padRight (hm.name st hst).over_cell hwidth

theorem isAligned_of_branches (hb : st.isBranching = true) {t : Transition}
    {rest : List Transition} (hts : st.transitions = t :: rest) :
    st.IsAligned nameWidth (ascii.block nameWidth st) := by
  have hname := isCell_name hm hst hwidth
  have hlabels : Transition.labels 0 st.transitions = t.label 0 :: rest.map (Transition.label 1) := by
    rw [hts, Transition.labels, Transition.labels_succ]
  have hfirst := branch_aligned hm hst hname (t := t) (i := 0) (by simp [hts]) (by simp [hlabels])
  have hothers : ∀ t' ∈ rest, _ := fun t' ht' =>
    branch_aligned hm hst (Text.isCell_spaces nameWidth) (t := t') (i := 1) (by simp [hts, ht'])
      (by simp only [hlabels, List.mem_cons, List.mem_map]; exact .inr ⟨t', ht', rfl⟩)
  have hrows : ∀ row ∈ ascii.block nameWidth st,
      Text.column? ascii.junction row = some (nameWidth + 1) ∧
      Text.column? ascii.arrow row = some (nameWidth + labelWidth st + 6) := by
    rw [block_of_branches hts hb]
    intro row hrow
    rcases List.mem_cons.mp hrow with rfl | hrow
    · exact hfirst.2
    · obtain ⟨t', ht', rfl⟩ := List.mem_map.mp hrow
      exact (hothers t' ht').2
  have hnil : [] ∉ ascii.block nameWidth st := nil_notMem_block hm hst
  rw [block_of_branches hts hb] at hrows hnil ⊢
  refine
    { length_eq := by simp [hts]
      nil_notMem := hnil
      name_fits := hname.length_eq
      first := ?_
      others := ?_
      junction := fun row hrow => by rw [hb]; exact (hrows row hrow).1
      arrow := ⟨_, fun row hrow => by rw [hts]; exact (hrows row hrow).2⟩ }
  · rintro row ⟨⟩
    exact hfirst.1
  · intro row hrow
    obtain ⟨t', ht', rfl⟩ := List.mem_map.mp hrow
    exact (hothers t' ht').1

/-- A state without a choice has a single row, which goes on after the name without a junction. -/
theorem isAligned_of_single_row (hb : st.isBranching = false) (hfew : st.transitions.length ≤ 1)
    {tail : Text} (htail : tail ≠ []) (hplus : 0x2b ∉ tail)
    (harrow : ∃ column, Text.column? ascii.arrow (st.name.padRight nameWidth ++ tail)
      = if st.transitions = [] then none else some column) :
    st.IsAligned nameWidth [st.name.padRight nameWidth ++ tail] := by
  have hname := isCell_name hm hst hwidth
  have hnone : Text.before? ascii.junction (st.name.padRight nameWidth ++ tail) = none := by
    refine Text.before?_of_notMem (by decide : 0x2b ∈ ascii.junction) ?_
    rw [List.mem_append, not_or]
    exact ⟨hname.bytes.notMem (by decide), hplus⟩
  obtain ⟨column, hcolumn⟩ := harrow
  exact
    { length_eq := (Nat.max_eq_left hfew).symm
      nil_notMem := by simp [htail]
      name_fits := hname.length_eq
      first := by rintro row ⟨⟩; exact List.prefix_append _ _
      others := by simp
      junction := by simp [hb, Text.column?, hnone]
      arrow := ⟨column, by simpa using hcolumn⟩ }

/-- **Every block is laid out like its neighbours.** -/
theorem isAligned_block : st.IsAligned nameWidth (ascii.block nameWidth st) := by
  have hname := isCell_name hm hst hwidth
  rcases st.shape_cases with hts | ⟨t, hts, hu⟩ | ⟨hb, t, rest, hts⟩
  · rw [block_of_none hts]
    refine isAligned_of_single_row hm hst hwidth (by rw [State.isBranching, hts]) (by simp [hts])
      (by decide) (by decide) ⟨0, ?_⟩
    have hnone : Text.before? ascii.arrow (st.name.padRight nameWidth ++ "  (no transitions)")
        = none := by
      refine Text.before?_of_notMem (by decide : 0x3e ∈ ascii.arrow) ?_
      rw [List.mem_append, not_or]
      exact ⟨hname.bytes.notMem (by decide), by decide⟩
    rw [Text.column?, hnone, if_pos hts]
    rfl
  · have htarget := hm.isUsable_target hst (t := t) (by simp [hts])
    have hrow : st.name.padRight nameWidth ++ " " ++ ascii.arrow ++ " " ++ t.target
        = st.name.padRight nameWidth ++ (" " ++ ascii.arrow ++ " " ++ t.target) := by
      simp only [List.append_assoc]
    have hplus : 0x2b ∉ " " ++ ascii.arrow ++ " " ++ t.target := by
      rw [List.mem_append, not_or]
      exact ⟨by decide, htarget.over_cell.notMem (by decide)⟩
    rw [block_of_single hts hu, htarget.trimSpacesRight_append, hrow]
    refine isAligned_of_single_row hm hst hwidth (by simp [State.isBranching, hts, hu])
      (by simp [hts]) (by simp [htarget.ne_nil]) hplus ⟨nameWidth + 1, ?_⟩
    have hcell := hname.bytes.append (by decide : Text.Over isCellByte " ")
    have hcolumn := column?_arrow (hcell.imp isDiagramByte_of_isCellByte)
      (hcell.notMem (by decide)) (" " ++ t.target)
    rw [← hrow, List.append_assoc _ _ t.target, hcolumn, List.length_append, hname.length_eq,
      if_neg (by simp [hts])]
    rfl
  · exact isAligned_of_branches hm hst hwidth hb hts

end DiagramStyle

/-! ## Diagrams -/

namespace Machine

/-- The lines are a title and then, for each state, an empty line and a block, and the blocks are
laid out for one common width of names. -/
def IsAligned (m : Machine) (lines : List Text) : Prop :=
  ∃ blocks nameWidth, lines = ("state flow (start: " ++ m.start ++ ")") ::
      blocks.flatMap (fun block => [] :: block) ∧
    List.Forall₂ (fun st block => st.IsAligned nameWidth block) m.states blocks

theorem isAligned_diagram {m : Machine} (hm : m.WellFormed) : m.IsAligned (m.diagram .ascii) := by
  refine ⟨m.states.map (DiagramStyle.ascii.block (Text.maxWidth m.stateNames)),
    Text.maxWidth m.stateNames, ?_, ?_⟩
  · rw [diagram, List.flatMap_map]
  · rw [List.forall₂_map_right_iff, List.forall₂_same]
    intro st hst
    exact DiagramStyle.isAligned_block hm hst
      (Text.width_le_maxWidth (List.mem_map_of_mem hst))

end Machine

/-- **The layout of a diagram.** For a machine without violations and the plain symbols, the lines
are a title and, for each state, an empty line and a row for each transition, but at least one. All
junctions stand in one column, the arrows of one state stand in one column, and a block starts with
the padded name of its state and goes on with as many spaces. And whatever the machine and the
symbols, no line of a diagram ends in a space, inside a comment or not. -/
theorem diagram_layout (m : Machine) :
    (m.violations = [] → m.IsAligned (m.diagram .ascii)) ∧
    ∀ style, ∀ line ∈ m.diagram style ++ m.diagramComment style,
      line.getLast? ≠ some Text.space := by
  refine ⟨fun hv => Machine.isAligned_diagram ((Machine.violations_eq_nil_iff _).mp hv), ?_⟩
  intro style line hline
  rcases List.mem_append.mp hline with hline | hline
  · exact Machine.getLast?_of_mem_diagram hline
  · exact Machine.getLast?_of_mem_diagramComment hline

/-- The diagram of a machine that has a block of each shape. -/
theorem shuttle_layout :
    shuttle.violations = [] ∧ shuttle.IsAligned (shuttle.diagram .ascii) ∧
    Text.column? DiagramStyle.ascii.arrow "RUN  +-- !done --> RUN" = some 15 ∧
    Text.column? DiagramStyle.ascii.arrow "     +-- else  --> IDLE" = some 15 :=
  ⟨violations_shuttle, (diagram_layout shuttle).1 violations_shuttle, by decide +kernel,
    by decide +kernel⟩

end StateForge
