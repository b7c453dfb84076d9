import StateForge.Proofs.Compact.Rendering

/-!
# The block form of a document

A document with one key per line, where lists are indented by two spaces below their key and each
item starts with a hyphen:

```
start: "IDLE"
states:
  - name: "IDLE"
    run: "idle"
    transitions:
      - predicate: !done
        state: "RUN"
```

Empty predicates and empty lists of transitions are left out. All values stand in double quotes, but
those of a negation may be left out: `bare i j` says so for the transition at `j` of the state at
`i`.

`Document.block` puts lines together, and indents them as a whole where they are nested. A reader
has to know the column of each line instead, so `Block.layout` is the text of some lines from a
column on, and `Block.layout_flatten`, `Block.layout_item` and `Block.layout_listEntry` say how the
forms of the rendering look from there.
-/

set_option autoImplicit false

namespace StateForge

/-! ## Lines -/

namespace Block

/-- The lines, one step further to the right. -/
def indented (lines : List Text) : List Text :=
  lines.map (Text.spaces 2 ++ ·)

/-- An item of a list. -/
def item : List Text → List Text
  | [] => []
  | line :: lines => (0x2d :: Text.space :: line) :: indented lines

/-- A key and what follows its colon. -/
def keyed (key value : Text) : Text :=
  key ++ 0x3a :: value

/-- A key with its value on the line. -/
def entry (key value : Text) : Text :=
  keyed key (Text.space :: value)

/-- A key with a list below it. -/
def listEntry (key : Text) (items : List (List Text)) : List Text :=
  keyed key [] :: indented (items.flatMap item)

end Block

/-! ## Documents -/

open Block StateForge.Compact

/-- The value of a predicate; a negation is written without quotes if it is `bare`. -/
def TransitionDocument.blockPredicate (bare : Bool) (d : TransitionDocument) : Text :=
  if bare ∧ d.predicate.head? = some Predicate.negationMark then d.predicate
  else quoted d.predicate

/-- The lines of a transition. -/
def TransitionDocument.block (bare : Bool) (d : TransitionDocument) : List Text :=
  (if d.predicate = [] then [] else [entry "predicate" (d.blockPredicate bare)]) ++
    [entry "state" (quoted d.state)]

/-- The lines of a state. -/
def StateDocument.block (bare : Nat → Bool) (d : StateDocument) : List Text :=
  [entry "name" (quoted d.name), entry "run" (quoted d.run)] ++
    if d.transitions = [] then []
    else listEntry "transitions" (d.transitions.mapIdx fun j => TransitionDocument.block (bare j))

/-- The text of a document. -/
def Document.block (bare : Nat → Nat → Bool) (d : Document) : Text :=
  Text.unlines <| [entry "start" (quoted d.start)] ++
    if d.states = [] then [entry "states" "[]"]
    else listEntry "states" (d.states.mapIdx fun i => StateDocument.block (bare i))

/-! ## Columns -/

namespace Block

/-- Lines that start in a column, each after the end of the line before. -/
def below (n : Nat) (lines : List Text) : Text :=
  lines.flatMap fun line => Text.newline :: (Text.spaces n ++ line)

/-- Lines from a column on: the first one starts there already. -/
def layout (n : Nat) : List Text → Text
  | [] => []
  | line :: lines => line ++ below n lines

theorem below_cons (n : Nat) (line : Text) (lines : List Text) :
    below n (line :: lines) = Text.newline :: (Text.spaces n ++ (line ++ below n lines)) := by
  rw [below, List.flatMap_cons, List.cons_append, List.append_assoc]
  rfl

theorem below_eq_layout (n : Nat) {lines : List Text} (h : lines ≠ []) :
    below n lines = Text.newline :: (Text.spaces n ++ layout n lines) := by
  obtain ⟨line, lines, rfl⟩ := List.exists_cons_of_ne_nil h
  exact below_cons n line lines

theorem below_append (n : Nat) (lines more : List Text) :
    below n (lines ++ more) = below n lines ++ below n more :=
  List.flatMap_append

theorem below_indented (n : Nat) (lines : List Text) :
    below n (indented lines) = below (n + 2) lines := by
  have hspaces : ∀ line,
      Text.spaces n ++ (Text.spaces 2 ++ line) = Text.spaces (n + 2) ++ line := by
    intro line
    rw [← List.append_assoc, Text.spaces, Text.spaces, List.replicate_append_replicate]
    rfl
  rw [below, indented, List.flatMap_map]
  simp only [hspaces]
  rfl

/-- Several lines can be taken as one. -/
theorem below_flatten (n : Nat) {parts : List (List Text)} (h : ∀ part ∈ parts, part ≠ []) :
    below n parts.flatten = below n (parts.map (layout n)) := by
  induction parts with
  | nil => rfl
  | cons part parts ih =>
    obtain ⟨hpart, hparts⟩ := List.forall_mem_cons.mp h
    rw [List.flatten_cons, below_append, ih hparts, below_eq_layout n hpart, List.map_cons,
      below_cons]
    simp

/-- **The parts of a text can be laid out one by one.** -/
theorem layout_flatten (n : Nat) {parts : List (List Text)} (h : ∀ part ∈ parts, part ≠ []) :
    layout n parts.flatten = layout n (parts.map (layout n)) := by
  cases parts with
  | nil => rfl
  | cons part parts =>
    obtain ⟨hpart, hparts⟩ := List.forall_mem_cons.mp h
    obtain ⟨line, lines, rfl⟩ := List.exists_cons_of_ne_nil hpart
    rw [List.flatten_cons, List.cons_append, layout, below_append, below_flatten n hparts,
      ← List.append_assoc]
    rfl

/-- The last lines of a text can be taken as one. -/
theorem layout_append (n : Nat) (lines : List Text) {last : List Text} (h : last ≠ []) :
    layout n (lines ++ last) = layout n (lines ++ [layout n last]) := by
  cases lines with
  | nil => exact (List.append_nil _).symm
  | cons line lines =>
    have hone : below n [layout n last] = Text.newline :: (Text.spaces n ++ layout n last) :=
      List.append_nil _
    rw [List.cons_append, List.cons_append, layout, layout, below_append, below_append,
      below_eq_layout n h, hone]

/-- **The lines of an item start two columns further.** -/
theorem layout_item (n : Nat) {lines : List Text} (h : lines ≠ []) :
    layout n (item lines) = 0x2d :: Text.space :: layout (n + 2) lines := by
  obtain ⟨line, lines, rfl⟩ := List.exists_cons_of_ne_nil h
  rw [item, layout, below_indented]
  rfl

theorem listEntry_ne_nil (key : Text) (items : List (List Text)) : listEntry key items ≠ [] :=
  List.cons_ne_nil _ _

/-- **A list stands below its key**, two columns further. -/
theorem layout_listEntry (n : Nat) (key : Text) {items : List (List Text)} (hitems : items ≠ [])
    (h : ∀ lines ∈ items, lines ≠ []) :
    layout n (listEntry key items) =
      keyed key (Text.newline :: (Text.spaces (n + 2) ++ layout (n + 2)
        (items.map fun lines => 0x2d :: Text.space :: layout (n + 4) lines))) := by
  have hne : ∀ part ∈ items.map item, part ≠ [] := by
    intro part hpart
    obtain ⟨lines, hlines, rfl⟩ := List.mem_map.mp hpart
    obtain ⟨line, lines, rfl⟩ := List.exists_cons_of_ne_nil (h lines hlines)
    exact List.cons_ne_nil _ _
  have hsome : (items.map item).flatten ≠ [] := by
    obtain ⟨lines, more, rfl⟩ := List.exists_cons_of_ne_nil hitems
    exact List.append_ne_nil_of_left_ne_nil (hne _ List.mem_cons_self) _
  have hlayout : (items.map item).map (layout (n + 2))
      = items.map fun lines => 0x2d :: Text.space :: layout (n + 4) lines := by
    rw [List.map_map]
    exact List.map_congr_left fun lines hlines => layout_item (n + 2) (h lines hlines)
  rw [listEntry, layout, below_indented, List.flatMap_def, below_eq_layout (n + 2) hsome,
    layout_flatten (n + 2) hne, hlayout, keyed, keyed, List.append_assoc, List.cons_append,
    List.nil_append]

theorem unlines_eq_layout {lines : List Text} (h : lines ≠ []) :
    Text.unlines lines = layout 0 lines ++ [Text.newline] := by
  obtain ⟨line, lines, rfl⟩ := List.exists_cons_of_ne_nil h
  induction lines generalizing line with
  | nil => simp [Text.unlines, layout, below]
  | cons next lines ih =>
    have hnext := ih next (List.cons_ne_nil _ _)
    rw [Text.unlines_cons, hnext, layout, layout, below_cons]
    simp [Text.spaces]

end Block

end StateForge
