import StateForge.Proofs.Diagram.Rows

/-!
# The diagram in a header

A header can carry the diagram of its machine in a comment. For a compiler the comment must be
nothing: it has to end where it is meant to end, whatever the names in the diagram are, so that no
part of the diagram is taken for code and no part of the code for the diagram.

`Comment.remove` takes the block comments out of a source of C. It is a machine that reads one byte
at a time and remembers whether it is in code, in a comment or in a literal, so that `/*` in a
literal or in a line comment does not count. What it makes of a text comes down to slashes:

* without a slash a block comment goes on (`Comment.run_inside`), and
* without a slash code is left as it is (`Comment.run_plain`).

There is no slash in a diagram of an accepted machine, by `Machine.over_of_mem_diagram`.
-/

set_option autoImplicit false

namespace StateForge

namespace Comment

/-! ## Taking comments out -/

/-- What is remembered of the bytes before. -/
inductive Mode where
  | code
  /-- After a slash in code, which may begin a comment. -/
  | slash
  | lineComment
  | blockComment
  /-- In a block comment, after an asterisk. -/
  | blockStar
  /-- In a literal between two quotes, which may be double or single ones. -/
  | literal (quote : UInt8)
  /-- In a literal, after a backslash. -/
  | escape (quote : UInt8)
deriving DecidableEq

namespace Mode

/-- Is this inside of a block comment? -/
def isInside : Mode → Bool
  | blockComment | blockStar => true
  | _ => false

/-- Is this in code or in a literal, and not after a slash? -/
def isPlain : Mode → Bool
  | code | literal _ | escape _ => true
  | _ => false

/-- One byte of code: the mode after it, and what is kept. -/
def fresh (b : UInt8) : Mode × Text :=
  if b = 0x2f then (slash, [])
  else if b = 0x22 ∨ b = 0x27 then (literal b, [b])
  else (code, [b])

/-- One byte: the mode after it, and what is kept. A slash in code is kept as soon as it is known
that it begins no block comment. A literal that is not closed ends with its line. -/
def step : Mode → UInt8 → Mode × Text
  | code, b => fresh b
  | slash, b =>
    if b = 0x2a then (blockComment, [])
    else if b = 0x2f then (lineComment, [0x2f, 0x2f])
    else ((fresh b).1, 0x2f :: (fresh b).2)
  | lineComment, b => (if b = Text.newline then code else lineComment, [b])
  | blockComment, b => (if b = 0x2a then blockStar else blockComment, [])
  | blockStar, b =>
    (if b = 0x2f then code else if b = 0x2a then blockStar else blockComment, [])
  | literal quote, b =>
    (if b = quote ∨ b = Text.newline then code
      else if b = 0x5c then escape quote
      else literal quote, [b])
  | escape quote, b => (literal quote, [b])

end Mode

/-- What is made of a text: the mode after it, and what is kept of it. -/
def run : Mode → Text → Mode × Text
  | q, [] => (q, [])
  | q, b :: rest => ((run (q.step b).1 rest).1, (q.step b).2 ++ (run (q.step b).1 rest).2)

/-- A source without its block comments. -/
def remove (s : Text) : Text :=
  (run .code s).2 ++ if (run .code s).1 = .slash then [0x2f] else []

example : remove "a /* b * / c */ \"/* d */\" // /* e\nf / g /" = "a  \"/* d */\" // /* e\nf / g /" := by
  decide +kernel

/-! ## Piece by piece -/

theorem run_append {q q' q'' : Mode} {s t kept kept' : Text} (hs : run q s = (q', kept))
    (ht : run q' t = (q'', kept')) : run q (s ++ t) = (q'', kept ++ kept') := by
  induction s generalizing q kept with
  | nil =>
    cases hs
    exact ht
  | cons b rest ih =>
    rw [run, Prod.mk.injEq] at hs
    obtain ⟨hmode, rfl⟩ := hs
    rw [List.cons_append, run, ih (Prod.ext hmode rfl), List.append_assoc]

/-- **Without a slash a block comment goes on**, and nothing is kept of it. -/
theorem run_inside {s : Text} (hs : 0x2f ∉ s) {q : Mode} (hq : q.isInside = true) :
    ∃ q', q'.isInside = true ∧ run q s = (q', []) := by
  induction s generalizing q with
  | nil => exact ⟨q, hq, rfl⟩
  | cons b rest ih =>
    have hb : b ≠ 0x2f := (List.ne_of_not_mem_cons hs).symm
    have hstep : (q.step b).1.isInside = true ∧ (q.step b).2 = [] := by
      cases q with
      | blockComment =>
        refine ⟨?_, rfl⟩
        rw [Mode.step]
        split <;> rfl
      | blockStar =>
        refine ⟨?_, rfl⟩
        rw [Mode.step, if_neg hb]
        split <;> rfl
      | code | slash | lineComment | literal | escape => exact absurd hq (by simp [Mode.isInside])
    obtain ⟨q', hq', hrest⟩ := ih (List.not_mem_of_not_mem_cons hs) hstep.1
    exact ⟨q', hq', by rw [run, hrest, hstep.2]; rfl⟩

/-- **Without a slash code is left as it is**, with its literals. -/
theorem run_plain {s : Text} (hs : 0x2f ∉ s) {q : Mode} (hq : q.isPlain = true) :
    ∃ q', q'.isPlain = true ∧ run q s = (q', s) := by
  induction s generalizing q with
  | nil => exact ⟨q, hq, rfl⟩
  | cons b rest ih =>
    have hb : b ≠ 0x2f := (List.ne_of_not_mem_cons hs).symm
    have hstep : (q.step b).1.isPlain = true ∧ (q.step b).2 = [b] := by
      cases q with
      | code =>
        rw [Mode.step, Mode.fresh, if_neg hb]
        split <;> exact ⟨rfl, rfl⟩
      | literal quote =>
        refine ⟨?_, rfl⟩
        rw [Mode.step]
        split
        · rfl
        · split <;> rfl
      | escape quote => exact ⟨rfl, rfl⟩
      | slash | lineComment | blockComment | blockStar => exact absurd hq (by simp [Mode.isPlain])
    obtain ⟨q', hq', hrest⟩ := ih (List.not_mem_of_not_mem_cons hs) hstep.1
    exact ⟨q', hq', by rw [run, hrest, hstep.2]; rfl⟩

/-- A line that ends in a letter leaves no literal open, not even after a backslash. -/
theorem run_lineEnd {q : Mode} (hq : q.isPlain = true) :
    run q [0x68, Text.newline] = (.code, [0x68, Text.newline]) := by
  cases q with
  | code => rfl
  | literal quote =>
    by_cases h : 0x68 = quote <;> simp [run, Mode.step, Mode.fresh, Text.newline, h]
  | escape quote => simp [run, Mode.step]
  | slash | lineComment | blockComment | blockStar => exact absurd hq (by simp [Mode.isPlain])

/-! ## One comment -/

/-- The comment that is opened after `before` is open as soon as its two first bytes are read, and
from there on up to its end. -/
def IsOneComment (before comment : Text) : Prop :=
  ∀ p, p <+: comment →
    ((run .code (before ++ p)).1.isInside = true ↔ Text.ofString "/*" <+: p ∧ p ≠ comment)

theorem run_opening : run .code "/*" = (.blockComment, []) := rfl

theorem run_ending {q : Mode} (hq : q.isInside = true) : run q "*/" = (.code, []) := by
  cases q with
  | blockComment => rfl
  | blockStar => rfl
  | code | slash | lineComment | literal | escape => exact absurd hq (by simp [Mode.isInside])

variable {body : Text} (hbody : 0x2f ∉ body)
include hbody

theorem run_comment : run .code ("/*" ++ (body ++ "*/")) = (.code, []) := by
  obtain ⟨q, hq, hrun⟩ := run_inside hbody (q := .blockComment) rfl
  exact run_append run_opening (run_append hrun (run_ending hq))

/-- A comment without a slash in it ends where it is meant to end. -/
theorem isOneComment {before kept : Text} (hbefore : run .code before = (.code, kept)) :
    IsOneComment before ("/*" ++ (body ++ "*/")) := by
  intro p hp
  rw [run_append hbefore (Prod.eta _).symm]
  by_cases hopen : Text.ofString "/*" <+: p
  · obtain ⟨inner, rfl⟩ := hopen
    rw [List.prefix_append_right_inj] at hp
    by_cases hwhole : inner = body ++ "*/"
    · rw [hwhole, run_comment hbody]
      simp [Mode.isInside]
    · -- up to its last byte the comment has no slash
      have hslash : 0x2f ∉ inner := by
        have hshort : inner <+: body ++ Text.ofString "*" := by
          have hlast : body ++ Text.ofString "*/" = body ++ Text.ofString "*" ++ [0x2f] := by
            rw [List.append_assoc]
            rfl
          rw [hlast, List.prefix_concat_iff, ← hlast] at hp
          exact hp.resolve_left hwhole
        refine fun hmem => absurd (hshort.subset hmem) ?_
        rw [List.mem_append, not_or]
        exact ⟨hbody, by decide⟩
      obtain ⟨q, hq, hrun⟩ := run_inside hslash (q := .blockComment) rfl
      simp only [run_append run_opening hrun, hq, true_iff]
      exact ⟨List.prefix_append _ _, fun h => hwhole (List.append_cancel_left h)⟩
  · -- what is shorter than the opening is empty or a slash
    have hshort : p <+: [0x2f, 0x2a] :=
      (List.prefix_or_prefix_of_prefix hp (List.prefix_append _ _)).resolve_right hopen
    have hmode : (run .code p).1.isInside = false := by
      rcases List.prefix_cons_iff.mp hshort with rfl | ⟨rest, rfl, hrest⟩
      · rfl
      · rcases List.prefix_cons_iff.mp hrest with rfl | ⟨rest', rfl, -⟩
        · rfl
        · exact absurd ⟨rest', rfl⟩ hopen
    simp [hmode, hopen]

end Comment

/-! ## Texts without a slash -/

/-- All bytes but the slash. -/
def isSlashless (b : UInt8) : Bool :=
  b != 0x2f

theorem isSlashless_of_isDiagramByte (b : UInt8) (h : isDiagramByte b = true) :
    isSlashless b = true := by
  rw [isDiagramByte, Bool.and_eq_true] at h
  exact h.2

namespace Text

theorem over_slashless_unlines {lines : List Text} (h : ∀ line ∈ lines, line.Over isSlashless) :
    (unlines lines).Over isSlashless := by
  intro b hb
  obtain ⟨line, hline, hb⟩ := List.mem_flatMap.mp hb
  rcases List.mem_append.mp hb with hb | hb
  · exact h line hline b hb
  · rw [List.mem_singleton.mp hb]
    rfl

theorem unlines_append (lines rest : List Text) :
    unlines (lines ++ rest) = unlines lines ++ unlines rest :=
  List.flatMap_append

/-- The last line of a text that does not end in a line feed. -/
theorem intercalate_newline_concat (lines : List Text) (last : Text) :
    [newline].intercalate (lines ++ [last]) = unlines lines ++ last := by
  induction lines with
  | nil => exact List.intercalate_singleton
  | cons line rest ih =>
    obtain ⟨next, more, hnext⟩ := List.exists_cons_of_ne_nil
      (List.append_ne_nil_of_right_ne_nil rest (List.cons_ne_nil last []))
    rw [List.cons_append, hnext, List.intercalate_cons_cons, ← hnext, ih, unlines_cons]
    simp only [List.append_assoc, List.cons_append, List.nil_append]

end Text

/-! ## Headers -/

namespace Machine

/-- The comment that a header carries, from its opening to its end. -/
def commentText (m : Machine) : Text :=
  [Text.newline].intercalate (m.diagramComment .ascii)

/-- What stands between the opening of the comment and its end. -/
def commentBody (m : Machine) : Text :=
  Text.newline :: Text.unlines ((m.diagram .ascii).map commentLine) ++ " "

theorem commentText_eq (m : Machine) : m.commentText = "/*" ++ (m.commentBody ++ "*/") := by
  rw [commentText, diagramComment, ← List.cons_append, Text.intercalate_newline_concat,
    Text.unlines_cons, commentBody]
  simp only [List.append_assoc, List.cons_append]
  rfl

theorem unlines_diagramComment (m : Machine) :
    Text.unlines (m.diagramComment .ascii) = m.commentText ++ [Text.newline] := by
  rw [commentText, diagramComment, ← List.cons_append, Text.intercalate_newline_concat,
    Text.unlines_append, List.append_assoc]
  rfl

theorem over_slashless_commentBody {m : Machine} (hm : m.WellFormed) :
    m.commentBody.Over isSlashless := by
  have hlines : (Text.unlines ((m.diagram .ascii).map commentLine)).Over isSlashless := by
    refine Text.over_slashless_unlines fun line hline => ?_
    obtain ⟨content, hcontent, rfl⟩ := List.mem_map.mp hline
    exact (over_commentLine (m.over_of_mem_diagram hm hcontent)).imp isSlashless_of_isDiagramByte
  have hnewline : Text.Over isSlashless [Text.newline] := by decide
  exact (hnewline.append hlines).append (by decide)

/-- The declarations of a header have no slash in them, below the line that describes them. -/
theorem over_slashless_headerBody {m : Machine} (hm : m.WellFormed) :
    (Text.unlines m.headerBody.tail).Over isSlashless := by
  have hnames : m.enumerators.Over isSlashless := by
    have htab : Text.Over isSlashless "\t" := by decide
    have hcomma : Text.Over isSlashless ", " := by decide
    exact htab.append (hcomma.intercalate fun _ hn =>
      (hm.isUsable_of_mem hn).over_diagram.imp isSlashless_of_isDiagramByte)
  refine Text.over_slashless_unlines ?_
  simp only [headerBody, List.tail_cons, List.forall_mem_cons]
  exact ⟨by decide, hnames, by decide⟩

end Machine

namespace SourceLayout

variable (layout : SourceLayout) (m : Machine)

theorem header_without_diagram :
    { layout with diagram := false }.header m = layout.guardLines ++ m.headerBody := by
  simp only [header, Bool.false_eq_true, if_false, List.append_nil]
  rfl

/-- The text of a header with a diagram. -/
theorem unlines_header_with_diagram :
    Text.unlines ({ layout with diagram := true }.header m)
      = Text.unlines layout.guardLines ++
          (m.commentText ++ Text.unlines ([] :: [] :: m.headerBody)) := by
  have hheader : { layout with diagram := true }.header m
      = layout.guardLines ++ (m.diagramComment .ascii ++ ([] :: m.headerBody)) := by
    simp only [header, if_pos, List.append_assoc]
    rfl
  rw [hheader, Text.unlines_append, Text.unlines_append, m.unlines_diagramComment,
    List.append_assoc m.commentText]
  rfl

/-- A guard is code, whatever is in the base name apart from slashes: a quote in it is closed at
the end of the line. -/
theorem run_guardLines {layout : SourceLayout} (hbase : 0x2f ∉ layout.baseName) :
    Comment.run .code (Text.unlines layout.guardLines)
      = (.code, Text.unlines layout.guardLines) := by
  have hline : ∀ lead : Text, 0x2f ∉ lead →
      Comment.run .code (lead ++ layout.guardName ++ [Text.newline])
        = (.code, lead ++ layout.guardName ++ [Text.newline]) := by
    intro lead hlead
    have hsplit : lead ++ layout.guardName ++ [Text.newline]
        = lead ++ layout.baseName ++ [0x5f] ++ [0x68, Text.newline] := by
      simp only [guardName, List.append_assoc]
      rfl
    have hslash : 0x2f ∉ lead ++ layout.baseName ++ [0x5f] := by
      simp only [List.mem_append, not_or]
      exact ⟨⟨hlead, hbase⟩, by decide⟩
    obtain ⟨q, hq, hrun⟩ := Comment.run_plain hslash (q := .code) rfl
    rw [hsplit]
    exact Comment.run_append hrun (Comment.run_lineEnd hq)
  have hblank : Comment.run .code [Text.newline] = (.code, [Text.newline]) := rfl
  have hlines : Text.unlines layout.guardLines
      = "#ifndef " ++ layout.guardName ++ [Text.newline] ++
          ("#define " ++ layout.guardName ++ [Text.newline] ++ [Text.newline]) := by
    simp [guardLines, Text.unlines]
  rw [hlines]
  exact Comment.run_append (hline _ (by decide))
    (Comment.run_append (hline _ (by decide)) hblank)

/-- The declarations of a header are code, with a line comment above them. -/
theorem run_headerBody {m : Machine} (hm : m.WellFormed) :
    ∃ q, q.isPlain = true ∧ Comment.run .code (Text.unlines ([] :: [] :: m.headerBody))
      = (q, Text.unlines ([] :: [] :: m.headerBody)) := by
  have hsplit : Text.unlines ([] :: [] :: m.headerBody)
      = "\n\n// definition of state values\n" ++ Text.unlines m.headerBody.tail := rfl
  have hopening : Comment.run .code "\n\n// definition of state values\n"
      = (.code, Text.ofString "\n\n// definition of state values\n") := by decide +kernel
  obtain ⟨q, hq, hrun⟩ := Comment.run_plain
    ((Machine.over_slashless_headerBody hm).notMem rfl) (q := .code) rfl
  rw [hsplit]
  exact ⟨q, hq, Comment.run_append hopening hrun⟩

end SourceLayout

/-- **A diagram in a header is nothing to a compiler.** For every machine without violations and
every base name without a slash, the header with a diagram is the header without one, with a comment
and line ends put in after the guard. The comment is open from its first two bytes up to its end, so
no name in the diagram can end it early, and without block comments two empty lines are all that is
left of it. -/
theorem diagram_removed_with_comments (layout : SourceLayout) {m : Machine}
    (hbase : 0x2f ∉ layout.baseName) (hv : m.violations = []) :
    { layout with diagram := false }.header m = layout.guardLines ++ m.headerBody ∧
    Text.unlines ({ layout with diagram := true }.header m)
      = Text.unlines layout.guardLines ++
          (m.commentText ++ Text.unlines ([] :: [] :: m.headerBody)) ∧
    Comment.IsOneComment (Text.unlines layout.guardLines) m.commentText ∧
    Comment.remove (Text.unlines ({ layout with diagram := true }.header m))
      = Text.unlines (layout.guardLines ++ [] :: [] :: m.headerBody) := by
  have hm := (Machine.violations_eq_nil_iff _).mp hv
  have hslash := (Machine.over_slashless_commentBody hm).notMem (rfl : isSlashless 0x2f = false)
  have hguard := SourceLayout.run_guardLines hbase
  obtain ⟨q, hq, hbody⟩ := SourceLayout.run_headerBody hm
  refine ⟨layout.header_without_diagram m, layout.unlines_header_with_diagram m, ?_, ?_⟩
  · rw [m.commentText_eq]
    exact Comment.isOneComment hslash hguard
  · have hcomment := Comment.run_comment hslash
    rw [← m.commentText_eq] at hcomment
    have hrun := Comment.run_append hguard (Comment.run_append hcomment hbody)
    have hnoSlash : q ≠ .slash := by
      rintro rfl
      exact absurd hq (by decide)
    rw [Comment.remove, layout.unlines_header_with_diagram, hrun, if_neg hnoSlash,
      List.append_nil, List.nil_append, Text.unlines_append]

/-- A base name with a quote in it, which opens a literal in the guard. -/
theorem shuttle_diagram_removed :
    0x2f ∉ (⟨"it's", "lib.h", true⟩ : SourceLayout).baseName ∧ shuttle.violations = [] ∧
    Comment.IsOneComment "#ifndef it's_h\n#define it's_h\n\n" shuttle.commentText ∧
    Comment.remove (Text.unlines (SourceLayout.header ⟨"it's", "lib.h", true⟩ shuttle))
      = Text.unlines ("#ifndef it's_h" :: "#define it's_h" :: [] :: [] :: [] ::
          shuttle.headerBody) := by
  obtain ⟨-, -, hone, hremoved⟩ :=
    diagram_removed_with_comments ⟨"it's", "lib.h", true⟩ (by decide) violations_shuttle
  exact ⟨by decide, violations_shuttle, hone, hremoved⟩

end StateForge
