import StateForge.Machine.Source
import StateForge.Proofs.Acceptance

/-!
# The bytes of generated sources

What can stand in a generated line decides whether the line survives being written to a file and
read back, and whether a comment ends where it should. Both questions are about single bytes, so
they are settled here once for all lines.

* `Text.Over p s` says that every byte of `s` has the property `p`.
* `Machine.over_of_mem_diagram`: a diagram of an accepted machine has only visible bytes, and no
  slash among them, so nothing in it can end a comment.
* `SourceLayout.isPlain_of_mem_header` and `SourceLayout.isPlain_of_mem_implementation`: no line has
  a line end in it or a carriage return at its end, as long as the names in the options have no line
  end in them.
-/

set_option autoImplicit false

namespace StateForge

/-! ## Texts over an alphabet -/

/-- Every byte of the text has the property. -/
def Text.Over (p : UInt8 → Bool) (s : Text) : Prop :=
  ∀ b ∈ s, p b = true

namespace Text

instance (p : UInt8 → Bool) (s : Text) : Decidable (s.Over p) :=
  List.decidableBAll (fun b => p b = true) s

variable {p : UInt8 → Bool} {s t : Text}

theorem Over.append (hs : s.Over p) (ht : t.Over p) : (s ++ t).Over p := by
  intro b hb
  rcases List.mem_append.mp hb with hb | hb
  · exact hs b hb
  · exact ht b hb

theorem Over.notMem (hs : s.Over p) {b : UInt8} (hb : p b = false) : b ∉ s := by
  intro hmem
  exact absurd (hs b hmem) (by simp [hb])

theorem Over.imp {q : UInt8 → Bool} (hs : s.Over p) (h : ∀ b, p b = true → q b = true) :
    s.Over q :=
  fun b hb => h b (hs b hb)

theorem over_spaces (h : p space = true) (n : Nat) : (spaces n).Over p := by
  intro b hb
  rwa [List.eq_of_mem_replicate hb]

theorem Over.trimSpacesRight (hs : s.Over p) : s.trimSpacesRight.Over p := by
  intro b hb
  rw [Text.trimSpacesRight, List.mem_reverse] at hb
  exact hs b (List.mem_reverse.mp ((List.dropWhile_sublist _).subset hb))

theorem Over.padRight (hs : s.Over p) (h : p space = true) (n : Nat) : (s.padRight n).Over p :=
  hs.append (over_spaces h _)

theorem Over.intercalate {sep : Text} (hsep : sep.Over p) {ws : List Text}
    (h : ∀ w ∈ ws, w.Over p) : Over p (List.intercalate sep ws) := by
  induction ws with
  | nil => exact fun b hb => absurd hb (by simp)
  | cons w rest ih =>
    obtain ⟨hw, hrest⟩ := List.forall_mem_cons.mp h
    cases rest with
    | nil => rwa [List.intercalate_singleton]
    | cons w' rest' =>
      rw [List.intercalate_cons_cons]
      exact (hw.append hsep).append (ih hrest)

theorem unlines_cons (line : Text) (lines : List Text) :
    unlines (line :: lines) = line ++ newline :: unlines lines := by
  simp [unlines]

end Text

/-- Bytes that show: from the space to the tilde, apart from the slash. -/
def isDiagramByte (b : UInt8) : Bool :=
  0x20 ≤ b && b ≤ 0x7e && b != 0x2f

/-- Bytes that show, and the tab. -/
def isSourceByte (b : UInt8) : Bool :=
  b == 0x09 || (0x20 ≤ b && b ≤ 0x7e)

theorem isSourceByte_of_isDiagramByte (b : UInt8) (h : isDiagramByte b = true) :
    isSourceByte b = true := by
  rw [isDiagramByte, Bool.and_eq_true] at h
  rw [isSourceByte, h.1, Bool.or_true]

theorem isDiagramByte_of_isIdentifierPart (b : UInt8) (h : isIdentifierPart b = true) :
    isDiagramByte b = true := by
  simp only [isIdentifierPart, isIdentifierStart, isDigitByte, isDiagramByte, Bool.or_eq_true,
    Bool.and_eq_true, decide_eq_true_eq, beq_iff_eq, bne_iff_ne, ne_eq, UInt8.le_iff_toNat_le,
    ← UInt8.toNat_inj, UInt8.reduceToNat] at h ⊢
  omega

theorem Text.IsUsable.over_diagram {w : Text} (h : w.IsUsable) : w.Over isDiagramByte :=
  fun b hb => isDiagramByte_of_isIdentifierPart b (h.mem_part hb)

theorem Text.IsUsable.over_source {w : Text} (h : w.IsUsable) : w.Over isSourceByte :=
  h.over_diagram.imp isSourceByte_of_isDiagramByte

/-! ## Names of a machine -/

namespace Machine

theorem mem_actions {m : Machine} {a : Text} : a ∈ m.actions ↔ ∃ st ∈ m.states, st.action = a := by
  rw [actions, List.mem_eraseDups, List.mem_map]

theorem mem_predicateNames {m : Machine} {p : Text} :
    p ∈ m.predicateNames ↔ ∃ st ∈ m.states, ∃ t ∈ st.transitions,
      t.isUnconditional = false ∧ t.predicate.name = p := by
  rw [predicateNames, List.mem_eraseDups, List.mem_filterMap]
  simp only [List.mem_flatMap, Option.ite_none_left_eq_some, Bool.not_eq_true, Option.some.injEq]
  constructor
  · rintro ⟨t, ⟨st, hst, ht⟩, h⟩
    exact ⟨st, hst, t, ht, h⟩
  · rintro ⟨st, hst, t, ht, h⟩
    exact ⟨t, ⟨st, hst, ht⟩, h⟩

namespace WellFormed

variable {m : Machine} (hm : m.WellFormed)
include hm

theorem isUsable_of_mem {n : Text} (h : n ∈ m.stateNames) : n.IsUsable := by
  obtain ⟨st, hst, rfl⟩ := List.mem_map.mp h
  exact hm.name st hst

theorem isUsable_target {st : State} (hst : st ∈ m.states) {t : Transition}
    (ht : t ∈ st.transitions) : t.target.IsUsable :=
  hm.isUsable_of_mem (hm.target st hst t ht)

theorem isUsable_of_mem_actions {a : Text} (ha : a ∈ m.actions) : a.IsUsable := by
  obtain ⟨st, hst, rfl⟩ := mem_actions.mp ha
  exact hm.action st hst

theorem isUsable_of_mem_predicateNames {p : Text} (hp : p ∈ m.predicateNames) : p.IsUsable := by
  obtain ⟨st, hst, t, ht, hu, rfl⟩ := mem_predicateNames.mp hp
  exact hm.isUsable_predicate hst ht hu

end WellFormed
end Machine

/-! ## Diagrams -/

/-- A negation mark in front of a name can be seen. -/
theorem Predicate.over_written {p : Predicate} (h : p.name.IsUsable) :
    p.written.Over isDiagramByte := by
  rw [Predicate.written]
  split
  · have hmark : Text.Over isDiagramByte [Predicate.negationMark] := by decide
    exact hmark.append h.over_diagram
  · exact h.over_diagram

theorem Transition.over_label {t : Transition}
    (h : t.isUnconditional = false → t.predicate.name.IsUsable) (i : Nat) :
    (t.label i).Over isDiagramByte := by
  rw [Transition.label]
  split
  · rename_i hcond
    exact Predicate.over_written (h (by simpa using hcond))
  · split
    · decide
    · decide

/-- Each pair of a label and a transition comes from one of the transitions. -/
theorem Transition.exists_of_mem_zip_labels {ts : List Transition} {i : Nat}
    {x : Text × Transition} (h : x ∈ (Transition.labels i ts).zip ts) :
    x.2 ∈ ts ∧ ∃ j, x.1 = x.2.label j := by
  induction ts generalizing i with
  | nil => simp [Transition.labels] at h
  | cons t rest ih =>
    rw [Transition.labels, List.zip_cons_cons, List.mem_cons] at h
    rcases h with rfl | h
    · exact ⟨by simp, i, rfl⟩
    · obtain ⟨hmem, hj⟩ := ih h
      exact ⟨List.mem_cons_of_mem _ hmem, hj⟩

namespace DiagramStyle

theorem over_row {left label target : Text} (hl : left.Over isDiagramByte)
    (hlabel : label.Over isDiagramByte) (ht : target.Over isDiagramByte) :
    (ascii.row left label target).Over isDiagramByte := by
  have hspace : Text.Over isDiagramByte " " := by decide
  have hjunction : Text.Over isDiagramByte ascii.junction := by decide
  have harrow : Text.Over isDiagramByte ascii.arrow := by decide
  exact (((((((hl.append hspace).append hjunction).append hspace).append hlabel).append
    hspace).append harrow).append hspace |>.append ht).trimSpacesRight

theorem over_rows {left indent : Text} {width : Nat} {branches : List (Text × Transition)}
    (hl : left.Over isDiagramByte) (hi : indent.Over isDiagramByte)
    (hb : ∀ x ∈ branches, x.1.Over isDiagramByte ∧ x.2.target.Over isDiagramByte) :
    ∀ line ∈ ascii.rows left indent width branches, line.Over isDiagramByte := by
  induction branches generalizing left with
  | nil => simp [rows]
  | cons x rest ih =>
    obtain ⟨label, t⟩ := x
    intro line hline
    rw [rows, List.mem_cons] at hline
    obtain ⟨hlabel, htarget⟩ := hb (label, t) (by simp)
    rcases hline with rfl | hline
    · exact over_row hl (hlabel.padRight (by decide) _) htarget
    · exact ih hi (fun y hy => hb y (List.mem_cons_of_mem _ hy)) line hline

theorem over_block {m : Machine} (hm : m.WellFormed) {st : State} (hst : st ∈ m.states)
    (width : Nat) : ∀ line ∈ ascii.block width st, line.Over isDiagramByte := by
  have hname : (st.name.padRight width).Over isDiagramByte :=
    (hm.name st hst).over_diagram.padRight (by decide) _
  have htarget : ∀ t ∈ st.transitions, t.target.Over isDiagramByte :=
    fun t ht => (hm.isUsable_target hst ht).over_diagram
  have hbranches : ∀ w, ∀ line ∈ ascii.rows (st.name.padRight width) (Text.spaces width) w
      ((Transition.labels 0 st.transitions).zip st.transitions), line.Over isDiagramByte := by
    intro w
    refine over_rows hname (Text.over_spaces (by decide) _) fun x hx => ?_
    obtain ⟨hmem, j, hj⟩ := Transition.exists_of_mem_zip_labels hx
    rw [hj]
    exact ⟨Transition.over_label (hm.isUsable_predicate hst hmem) j, htarget x.2 hmem⟩
  intro line hline
  rw [block] at hline
  split at hline
  · have hnone : Text.Over isDiagramByte "  (no transitions)" := by decide
    rw [List.mem_singleton] at hline
    rw [hline]
    exact hname.append hnone
  · rename_i t hts
    split at hline
    · have hspace : Text.Over isDiagramByte " " := by decide
      have harrow : Text.Over isDiagramByte ascii.arrow := by decide
      rw [List.mem_singleton] at hline
      rw [hline]
      exact ((((hname.append hspace).append harrow).append hspace).append
        (htarget t (by simp [hts]))).trimSpacesRight
    · exact hbranches _ line hline
  · exact hbranches _ line hline

end DiagramStyle

/-- **A diagram has no slash in it**, and nothing that does not show. -/
theorem Machine.over_of_mem_diagram {m : Machine} (hm : m.WellFormed) {line : Text}
    (h : line ∈ m.diagram .ascii) : line.Over isDiagramByte := by
  rw [Machine.diagram, List.mem_cons, List.mem_flatMap] at h
  rcases h with rfl | ⟨st, hst, hline⟩
  · have hopen : Text.Over isDiagramByte "state flow (start: " := by decide
    have hclose : Text.Over isDiagramByte ")" := by decide
    exact (hopen.append (hm.isUsable_of_mem hm.start).over_diagram).append hclose
  · rcases List.mem_cons.mp hline with rfl | hline
    · exact fun b hb => absurd hb (by simp)
    · exact DiagramStyle.over_block hm hst _ line hline

theorem Machine.over_commentLine {line : Text} (h : line.Over isDiagramByte) :
    (Machine.commentLine line).Over isDiagramByte := by
  rw [Machine.commentLine]
  split
  · decide
  · have hstar : Text.Over isDiagramByte " * " := by decide
    exact hstar.append h

/-! ## Lines of code -/

/-- Every line is made of bytes that can be seen, and tabs. -/
def OverLines (lines : List Text) : Prop :=
  ∀ line ∈ lines, line.Over isSourceByte

instance (lines : List Text) : Decidable (OverLines lines) :=
  List.decidableBAll (Text.Over isSourceByte) lines

namespace OverLines

variable {line : Text} {lines rest : List Text}

theorem cons (hline : line.Over isSourceByte) (hrest : OverLines rest) :
    OverLines (line :: rest) := by
  intro l hl
  rcases List.mem_cons.mp hl with rfl | hl
  · exact hline
  · exact hrest l hl

theorem append (hlines : OverLines lines) (hrest : OverLines rest) : OverLines (lines ++ rest) := by
  intro l hl
  rcases List.mem_append.mp hl with hl | hl
  · exact hlines l hl
  · exact hrest l hl

theorem blank (hrest : OverLines rest) : OverLines ([] :: rest) :=
  cons (fun _ hb => absurd hb (by simp)) hrest

theorem map {α : Type} {f : α → Text} {l : List α} (h : ∀ a ∈ l, (f a).Over isSourceByte) :
    OverLines (l.map f) := by
  intro line hline
  obtain ⟨a, ha, rfl⟩ := List.mem_map.mp hline
  exact h a ha

theorem flatMap {α : Type} {f : α → List Text} {l : List α} (h : ∀ a ∈ l, OverLines (f a)) :
    OverLines (l.flatMap f) := by
  intro line hline
  obtain ⟨a, ha, hline⟩ := List.mem_flatMap.mp hline
  exact h a ha line hline

end OverLines

/-- Fixed text on both sides of a text. -/
theorem Text.Over.around {p : UInt8 → Bool} {w lead tail : Text} (hw : w.Over p)
    (hlead : lead.Over p) (htail : tail.Over p) : (lead ++ w ++ tail).Over p :=
  (hlead.append hw).append htail

namespace Transition

theorem over_assignment {t : Transition} (ht : t.target.IsUsable) {depth : Text}
    (hd : depth.Over isSourceByte) : (t.assignment depth).Over isSourceByte := by
  have hlead : Text.Over isSourceByte "nextState = " := by decide
  exact ht.over_source.around (hd.append hlead) (by decide)

theorem over_call {p : Predicate} (hp : p.name.IsUsable) : p.call.Over isSourceByte := by
  have hparens : Text.Over isSourceByte "()" := by decide
  exact ((Predicate.over_written hp).imp isSourceByte_of_isDiagramByte).append hparens

theorem overLines_chainRest {ts : List Transition} (htarget : ∀ t ∈ ts, t.target.IsUsable)
    (hpredicate : ∀ t ∈ ts, t.isUnconditional = false → t.predicate.name.IsUsable) :
    OverLines (chainRest ts) := by
  induction ts with
  | nil => exact fun _ h => absurd h (by simp [chainRest])
  | cons t ts ih =>
    have hassign := over_assignment (htarget t (by simp))
      (show Text.Over isSourceByte "\t\t\t" by decide)
    rw [chainRest]
    split
    · exact .cons (by decide) (.cons hassign (by decide))
    · rename_i hu
      have hcall := over_call (hpredicate t (by simp) (by simpa using hu))
      exact .cons (hcall.around (by decide) (by decide)) (.cons hassign
        (ih (fun t' ht' => htarget t' (List.mem_cons_of_mem _ ht'))
          (fun t' ht' => hpredicate t' (List.mem_cons_of_mem _ ht'))))

theorem overLines_chain {ts : List Transition} (htarget : ∀ t ∈ ts, t.target.IsUsable)
    (hpredicate : ∀ t ∈ ts, t.isUnconditional = false → t.predicate.name.IsUsable) :
    OverLines (chain ts) := by
  cases ts with
  | nil => exact fun _ h => absurd h (by simp [chain])
  | cons t ts =>
    have ht := htarget t (by simp)
    rw [chain]
    split
    · exact .cons (over_assignment ht (by decide)) (by decide)
    · rename_i hu
      have hcall := over_call (hpredicate t (by simp) (by simpa using hu))
      have hrest := overLines_chainRest (fun t' ht' => htarget t' (List.mem_cons_of_mem _ ht'))
        (fun t' ht' => hpredicate t' (List.mem_cons_of_mem _ ht'))
      exact .cons (hcall.around (by decide) (by decide))
        (.cons (over_assignment ht (by decide)) (hrest.append (by decide)))

end Transition

namespace Machine

variable {m : Machine} (hm : m.WellFormed)
include hm

theorem overLines_runFunction : OverLines m.runFunction := by
  have hcases : OverLines (m.states.flatMap State.runCase) := by
    refine .flatMap fun st hst => ?_
    exact .cons ((hm.name st hst).over_source.around (by decide) (by decide))
      (.cons ((hm.action st hst).over_source.around (by decide) (by decide)) (by decide))
  exact .append (.append (by decide) hcases) (by decide)

theorem overLines_transitionFunction : OverLines m.transitionFunction := by
  have hcases : OverLines (m.states.flatMap State.transitionCase) := by
    refine .flatMap fun st hst => ?_
    have hchain := Transition.overLines_chain
      (fun t ht => hm.isUsable_target hst ht) fun t ht => hm.isUsable_predicate hst ht
    exact .cons ((hm.name st hst).over_source.around (by decide) (by decide))
      (hchain.append (by decide))
  exact .append (.append (by decide) hcases) (by decide)

theorem over_enumerators : m.enumerators.Over isSourceByte := by
  have htab : Text.Over isSourceByte "\t" := by decide
  have hcomma : Text.Over isSourceByte ", " := by decide
  exact htab.append (hcomma.intercalate fun _ hn => (hm.isUsable_of_mem hn).over_source)

theorem overLines_diagramComment : OverLines (m.diagramComment .ascii) := by
  have hlines : OverLines ((m.diagram .ascii).map commentLine) := .map fun line hline =>
    (over_commentLine (m.over_of_mem_diagram hm hline)).imp isSourceByte_of_isDiagramByte
  exact .cons (by decide) (hlines.append (by decide))

end Machine

/-! ## Lines that survive a file -/

/-- No line feed in the line, and no carriage return at its end. -/
structure Text.IsPlain (line : Text) : Prop where
  no_newline : Text.newline ∉ line
  no_return : line.getLast? ≠ some Text.carriageReturn

namespace Text

theorem Over.isPlain {line : Text} (h : line.Over isSourceByte) : line.IsPlain := by
  refine ⟨h.notMem (by decide), fun hlast => ?_⟩
  exact h.notMem (by decide : isSourceByte carriageReturn = false) (List.mem_of_getLast? hlast)

/-- At the end of a line only what is written last counts. -/
theorem IsPlain.append {s tail : Text} (hs : newline ∉ s) (ht : tail.Over isSourceByte)
    (hne : tail ≠ []) : (s ++ tail).IsPlain := by
  have htail := ht.isPlain
  refine ⟨?_, ?_⟩
  · rw [List.mem_append, not_or]
    exact ⟨hs, htail.no_newline⟩
  · rw [List.getLast?_append, List.getLast?_eq_some_getLast hne, Option.some_or,
      ← List.getLast?_eq_some_getLast hne]
    exact htail.no_return

end Text

namespace SourceLayout

variable {layout : SourceLayout} {m : Machine} (hm : m.WellFormed)
include hm

theorem isPlain_of_mem_header (hbase : Text.newline ∉ layout.baseName) {line : Text}
    (h : line ∈ layout.header m) : line.IsPlain := by
  have hguard : ∀ lead : Text, Text.newline ∉ lead → (lead ++ layout.guardName).IsPlain := by
    intro lead hlead
    rw [guardName, ← List.append_assoc]
    exact .append (by simp [hlead, hbase]) (by decide) (by decide)
  have hbody : OverLines m.headerBody :=
    .cons (by decide) (.cons (by decide) (.cons (Machine.over_enumerators hm) (by decide)))
  have hdiagram : OverLines (if layout.diagram then m.diagramComment .ascii ++ [[]] else []) := by
    split
    · exact (Machine.overLines_diagramComment hm).append (by decide)
    · decide
  rw [header, guardLines, List.append_assoc, List.mem_append] at h
  rcases h with h | h
  · simp only [List.mem_cons, List.not_mem_nil, or_false] at h
    rcases h with rfl | rfl | rfl
    · exact hguard _ (by decide)
    · exact hguard _ (by decide)
    · exact ⟨by simp, by simp⟩
  · exact (hdiagram.append hbody line h).isPlain

theorem isPlain_of_mem_implementation (hbase : Text.newline ∉ layout.baseName)
    (hplatform : Text.newline ∉ layout.platformHeader) {line : Text}
    (h : line ∈ layout.implementation m) : line.IsPlain := by
  have hquoted : ∀ name : Text, Text.newline ∉ name →
      Text.IsPlain ("#include \"" ++ name ++ "\"") := by
    intro name hname
    have hlead : Text.newline ∉ Text.ofString "#include \"" := by decide
    exact .append (by simp [hlead, hname]) (by decide) (by decide)
  have hactions : OverLines (m.actions.map Machine.actionDeclaration) := .map fun a ha =>
    (hm.isUsable_of_mem_actions ha).over_source.around (by decide) (by decide)
  have hpredicates : OverLines (m.predicateNames.map Machine.predicateDeclaration) :=
    .map fun p hp =>
      (hm.isUsable_of_mem_predicateNames hp).over_source.around (by decide) (by decide)
  have hvariable : OverLines m.stateVariable :=
    .cons (by decide) (.cons ((hm.isUsable_of_mem hm.start).over_source.around (by decide)
      (by decide)) (by decide))
  have hfunctions := (Machine.overLines_runFunction hm).append
    (Machine.overLines_transitionFunction hm).blank
  have hbody :=
    (hactions.append (hpredicates.append (hvariable.append hfunctions.blank).blank).blank).blank
  rw [implementation, includes, List.mem_append] at h
  rcases h with h | h
  · simp only [List.mem_cons, List.not_mem_nil, or_false] at h
    rcases h with rfl | rfl
    · exact hquoted _ hplatform
    · have hdot : Text.newline ∉ Text.ofString ".h" := by decide
      exact hquoted _ (by simp [headerName, hbase, hdot])
  · exact (hbody line h).isPlain

end SourceLayout

end StateForge
