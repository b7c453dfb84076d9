import StateForge.Proofs.Block.Nodes
import StateForge.Proofs.Block.Rendering
import StateForge.Proofs.Block.Tokens
import StateForge.Proofs.Compact.Agreement

/-!
# The block form is read back

A document with simple names is read back from its block form, whichever of its negations stand
without quotes (`block_roundTrip`).

`Yaml.ShowsBlock n w P` joins the three stages of the reader for a text that starts in column `n`:
its bytes are accepted, it is cut into tokens, and a node for which `P` holds is built from these.
Nodes know their lines, so it is not said which node that is. What is said in the end is that the
part of the document is read from it: `TransitionDocument.ReadFrom`, `StateDocument.ReadFrom`.
-/

set_option autoImplicit false

namespace StateForge

open Block

namespace Yaml

/-! ## From texts to nodes -/

/-- The text after the colon of a key in column `n` is a value for which `P` holds. -/
structure ShowsValue (n : Nat) (w : Text) (P : Node → Prop) : Prop where
  showing : w.Over isShowingByte
  read : ∃ lexemes, ScanState.ValueScans n w lexemes ∧ Compose.BuildsValue lexemes P

/-- The text from column `n` on is a block for which `P` holds. -/
structure ShowsBlock (n : Nat) (w : Text) (P : Node → Prop) : Prop where
  showing : w.Over isShowingByte
  read : ∃ lexemes, ScanState.BlockScans n w lexemes ∧ Compose.BuildsBlock lexemes P

variable {n : Nat} {w : Text} {P Q : Node → Prop}

theorem ShowsBlock.mono (h : ShowsBlock n w P) (hPQ : ∀ node, P node → Q node) :
    ShowsBlock n w Q := by
  obtain ⟨hshowing, lexemes, hscans, hbuilds⟩ := h
  exact ⟨hshowing, lexemes, hscans, hbuilds.mono hPQ⟩

theorem showsValue_quoted (h : w.Over isQuotable) (n : Nat) :
    ShowsValue n (Text.space :: Compact.quoted w) (Node.IsText · w) where
  showing := List.forall_mem_cons.mpr ⟨by decide, over_showing_quoted h⟩
  read := ⟨_, ScanState.valueScans_quoted h n, (Compose.buildsBlock_quoted w).value⟩

theorem head?_ne_of_isIdentifier (h : w.isIdentifier = true) :
    w.head? ≠ some Predicate.negationMark := by
  intro hhead
  obtain ⟨rest, rfl⟩ := List.head?_eq_some_iff.mp hhead
  rw [Text.isIdentifier, Bool.and_eq_true] at h
  exact absurd h.1 (by decide)

theorem ne_nil_of_isIdentifier (h : w.isIdentifier = true) : w ≠ [] := by
  rintro rfl
  exact absurd h (by decide)

/-- A name after an exclamation mark is no tag of the schema. -/
theorem isSchemaTag_of_isIdentifier (h : w.isIdentifier = true) :
    isSchemaTag (Predicate.negationMark :: w) = false := by
  have hshort : shortTag (Predicate.negationMark :: w) = Predicate.negationMark :: w := rfl
  rw [isSchemaTag, hshort, Bool.eq_false_iff]
  intro hmarks
  obtain ⟨rest, hrest⟩ := List.isPrefixOf_iff_prefix.mp hmarks
  exact head?_ne_of_isIdentifier h (by rw [← (List.cons.inj hrest).2]; rfl)

/-- A negation without quotes. -/
theorem showsValue_negation (h : w.isIdentifier = true) (n : Nat) :
    ShowsValue n (Text.space :: Predicate.negationMark :: w)
      (Node.IsTag · (Predicate.negationMark :: w)) where
  showing := by
    refine List.forall_mem_cons.mpr ⟨by decide, List.forall_mem_cons.mpr ⟨by decide, ?_⟩⟩
    exact over_showing_of_quotable (over_quotable_of_isIdentifier h)
  read := ⟨_, ScanState.valueScans_tag h n,
    Compose.buildsValue_tag (ne_nil_of_isIdentifier h) (isSchemaTag_of_isIdentifier h)⟩

theorem showsValue_nothing (n : Nat) :
    ShowsValue n (Text.space :: Text.ofString "[]") (Node.IsSequence · []) where
  showing := by decide
  read := ⟨_, ScanState.valueScans_nothing n, Compose.buildsBlock_nothing.value⟩

/-- A block stands below its key, two columns further. -/
theorem ShowsBlock.below_key (h : ShowsBlock (n + 2) w P) :
    ShowsValue n (Text.newline :: (Text.spaces (n + 2) ++ w)) P where
  showing := List.forall_mem_cons.mpr ⟨by decide, (Text.over_spaces (by decide) _).append h.showing⟩
  read := by
    obtain ⟨lexemes, hscans, hbuilds⟩ := h.read
    exact ⟨lexemes, ScanState.valueScans_block hscans, hbuilds.value⟩

theorem over_layout {ws : List Text} (h : ∀ w ∈ ws, w.Over isShowingByte) :
    (layout n ws).Over isShowingByte := by
  cases ws with
  | nil => exact fun b hb => absurd hb (by simp [layout])
  | cons w ws =>
    obtain ⟨hw, hws⟩ := List.forall_mem_cons.mp h
    refine hw.append fun b hb => ?_
    obtain ⟨w', hw', hb⟩ := List.mem_flatMap.mp hb
    exact List.forall_mem_cons.mpr
      ⟨by decide, (Text.over_spaces (by decide) n).append (hws w' hw')⟩ b hb

/-- **A list is shown**, if its items are. -/
theorem showsBlock_sequence {ws : List Text} {Ps : List (Node → Prop)}
    (hdepth : n < ScanState.maxDepth) (hne : ws ≠ [])
    (h : List.Forall₂ (ShowsBlock (n + 2)) ws Ps) :
    ShowsBlock n (layout n (ws.map fun w => 0x2d :: Text.space :: w)) (Node.IsSequence · Ps) where
  showing := by
    have hws : ∀ w ∈ ws, w.Over isShowingByte :=
      ((List.forall₂_and_left _ _).mp (h.imp fun _ _ hw => ⟨hw.showing, hw⟩)).1
    refine over_layout (List.forall_mem_map.mpr fun w hw => ?_)
    exact List.forall_mem_cons.mpr
      ⟨by decide, List.forall_mem_cons.mpr ⟨by decide, hws w hw⟩⟩
  read := by
    obtain ⟨lss, hscans, hbuilds⟩ : ∃ lss,
        List.Forall₂ (fun w lexemes => ScanState.PartScans .blockSequenceStart n
          (0x2d :: Text.space :: w) lexemes) ws lss ∧
        List.Forall₂ Compose.BuildsItem lss Ps := by
      refine exists_forall₂ (h.imp fun w P hw => ?_)
      obtain ⟨lexemes, hscans, hbuilds⟩ := hw.read
      exact ⟨_, ScanState.partScans_item hdepth hscans, .mk hbuilds⟩
    refine ⟨_, ScanState.blockScans_layout (List.forall₂_map_left_iff.mpr hscans) ?_,
      Compose.buildsBlock_sequence hbuilds⟩
    exact fun heq => hne (List.map_eq_nil_iff.mp heq)

/-- The name of a field, which is a string also if it is not quoted. -/
def isPlainKey (key : Text) : Bool :=
  key.isIdentifier && key.length ≤ 1000 && (ScalarKind.ofText true key).tag == schema.str

theorem isPlainKey_iff {key : Text} :
    isPlainKey key = true ↔ key.isIdentifier = true ∧ key.length ≤ 1000 ∧
      (ScalarKind.ofText true key).tag = schema.str := by
  simp only [isPlainKey, Bool.and_eq_true, decide_eq_true_eq, beq_iff_eq, and_assoc]

theorem isText_of_isPlainKey {key : Text} (h : isPlainKey key = true) (line : Nat) :
    Node.IsText (({} : NodeProperties).scalar line key true) key := by
  obtain ⟨hname, -, htag⟩ := isPlainKey_iff.mp h
  have hmerge : (key == Text.ofString "<<") = false := by
    refine beq_false_of_ne ?_
    rintro rfl
    exact absurd hname (by decide)
  refine ⟨line + 1, ?_⟩
  rw [NodeProperties.scalar, ← htag]
  simp only [hmerge]
  rfl

/-- The text is an entry with the key and a value for which the field's property holds. -/
inductive ShowsEntry (n : Nat) : Text → Text × (Node → Prop) → Prop
  | mk {key w : Text} {P : Node → Prop} (hkey : isPlainKey key = true) (h : ShowsValue n w P) :
      ShowsEntry n (keyed key w) (key, P)

theorem ShowsEntry.showing {field : Text × (Node → Prop)} (h : ShowsEntry n w field) :
    w.Over isShowingByte := by
  obtain ⟨hkey, hvalue⟩ := h
  obtain ⟨hname, -, -⟩ := isPlainKey_iff.mp hkey
  exact .append (over_showing_of_quotable (over_quotable_of_isIdentifier hname))
    (List.forall_mem_cons.mpr ⟨by decide, hvalue.showing⟩)

/-- **A mapping is shown**, if its entries are. -/
theorem showsBlock_mapping {ws : List Text} {fields : List (Text × (Node → Prop))}
    (hdepth : n < ScanState.maxDepth) (hne : ws ≠ []) (h : List.Forall₂ (ShowsEntry n) ws fields) :
    ShowsBlock n (layout n ws) (Node.IsMapping · fields) where
  showing := over_layout
    ((List.forall₂_and_left _ _).mp (h.imp fun _ _ hw => ⟨hw.showing, hw⟩)).1
  read := by
    obtain ⟨lss, hscans, hbuilds⟩ : ∃ lss,
        List.Forall₂ (ScanState.PartScans .blockMappingStart n) ws lss ∧
        List.Forall₂ Compose.BuildsEntry lss fields := by
      refine exists_forall₂ (h.imp fun _ _ hw => ?_)
      obtain ⟨hkey, hvalue⟩ := hw
      obtain ⟨lexemes, hscans, hbuilds⟩ := hvalue.read
      obtain ⟨hname, hshort, -⟩ := isPlainKey_iff.mp hkey
      exact ⟨_, ScanState.partScans_entry hname hshort hdepth hscans,
        .mk (isText_of_isPlainKey hkey) hbuilds⟩
    exact ⟨_, ScanState.blockScans_layout hscans hne, Compose.buildsBlock_mapping hbuilds⟩

/-! ## The forms of the rendering -/

theorem showsEntry_quoted {key : Text} (hkey : isPlainKey key = true) (h : w.Over isQuotable)
    (n : Nat) : ShowsEntry n (entry key (Compact.quoted w)) (key, (Node.IsText · w)) :=
  .mk hkey (showsValue_quoted h n)

theorem showsEntry_list {key : Text} (hkey : isPlainKey key = true) {items : List (List Text)}
    {Ps : List (Node → Prop)} (hdepth : n + 2 < ScanState.maxDepth) (hitems : items ≠ [])
    (hne : ∀ lines ∈ items, lines ≠ [])
    (h : List.Forall₂ (fun lines => ShowsBlock (n + 4) (layout (n + 4) lines)) items Ps) :
    ShowsEntry n (layout n (listEntry key items)) (key, (Node.IsSequence · Ps)) := by
  have hblock := showsBlock_sequence hdepth (mt List.map_eq_nil_iff.mp hitems)
    (List.forall₂_map_left_iff.mpr h)
  rw [layout_listEntry n key hitems hne]
  rw [List.map_map] at hblock
  exact .mk hkey hblock.below_key

theorem forall₂_mapIdx {α β γ : Type} {r : β → γ → Prop} {f : Nat → α → β} {g : α → γ} {l : List α}
    (h : ∀ i, ∀ a ∈ l, r (f i a) (g a)) : List.Forall₂ r (l.mapIdx f) (l.map g) := by
  induction l generalizing f with
  | nil => exact .nil
  | cons a l ih =>
    rw [List.mapIdx_cons, List.map_cons]
    exact .cons (h 0 a List.mem_cons_self)
      (ih fun i a' ha' => h (i + 1) a' (List.mem_cons_of_mem a ha'))

end Yaml

open Yaml

/-- A list is read, if each of its items is. -/
theorem Yaml.Decode.yields_list_of_isSequence {α : Type} {type : Text}
    {item : Scope → Node → Decode (Option α)} {scope : Scope} (hactive : scope.active = [])
    {reads : α → Node → Prop} (hitem : ∀ a n, reads a n → Yields (item scope n) (some a))
    {n : Node} {as : List α} (h : n.IsSequence (as.map reads)) :
    Yields (list type item scope n) as := by
  obtain ⟨line, items, rfl, hitems⟩ := h
  refine yields_list hactive line schema.seq ?_
  exact (List.forall₂_map_right_iff.mp hitems).imp fun n a hn => hitem a n hn

/-! ## Transitions -/

/-- A tag with nothing after it is read as the empty text. -/
theorem Yaml.Decode.yields_text_of_isTag {scope : Scope} (hactive : scope.active = []) {n : Node}
    {tag : Text} (htag : isSchemaTag tag = false) (hn : n.IsTag tag) (old : Text) :
    Yields (text scope n old) "" := by
  obtain ⟨line, rfl⟩ := hn
  have hbinary : (tag == schema.binary) = false := beq_schema_of_foreign htag rfl
  have htext : Yields (text? scope (.scalar line tag true [])) (some []) := by
    refine .bind (yields_follow hactive (by simp)) ?_
    simp only [hbinary]
    exact .bind (yields_lift (resolve_of_foreign htag [])) (yields_pure _)
  exact .bind htext (yields_pure _)

/-- The transition is read from the node. -/
def TransitionDocument.ReadFrom (d : TransitionDocument) (n : Node) : Prop :=
  ∀ scope : Scope, scope.active = [] → Decode.Yields (ofYaml scope n) (some d)

namespace TransitionDocument

/-- Only a scalar with a tag is restored. -/
theorem restoreTag_of_isText {key val : Node} {s : Text} (h : val.IsText s)
    (d : TransitionDocument) : restoreTag (key, val) d = d := by
  obtain ⟨line, rfl⟩ := h
  rfl

theorem restoreTag_of_isTag {key val : Node} {tag : Text} (hkey : key.IsText "predicate")
    (htag : isSchemaTag tag = false) (hval : val.IsTag tag) (d : TransitionDocument) :
    restoreTag (key, val) d = { d with predicate := tag } := by
  obtain ⟨line, rfl⟩ := hkey
  obtain ⟨line', rfl⟩ := hval
  rw [restoreTag]
  simp [isPrefixOf_of_foreign htag, Node.text]

/-- A transition without a predicate. -/
theorem readFrom_unguarded {n : Node} {state : Text}
    (h : n.IsMapping [("state", (Node.IsText · state))]) : ReadFrom ⟨"", state⟩ n := by
  intro scope hactive
  obtain ⟨line, _, rfl, _ | ⟨⟨(hkey : Node.IsText _ "state"), hval⟩, _ | _⟩⟩ := h
  have hread := yields_ofYaml hactive line <|
    .cons hkey (by decide) rfl (Decode.yields_field hactive hval _ _) <| .nil _ _
  rw [List.foldl_cons, restoreTag_of_isText hval] at hread
  exact hread

/-- A predicate in quotes. -/
theorem readFrom_quoted {n : Node} {predicate state : Text}
    (h : n.IsMapping [("predicate", (Node.IsText · predicate)), ("state", (Node.IsText · state))]) :
    ReadFrom ⟨predicate, state⟩ n := by
  intro scope hactive
  obtain ⟨line, _, rfl, _ | ⟨⟨(hkey : Node.IsText _ "predicate"), hval⟩,
    _ | ⟨⟨(hkey' : Node.IsText _ "state"), hval'⟩, _ | _⟩⟩⟩ := h
  have hread := yields_ofYaml hactive line <|
    .cons hkey (by decide) rfl (Decode.yields_field hactive hval _ _) <|
    .cons hkey' (by decide) rfl (Decode.yields_field hactive hval' _ _) <| .nil _ _
  rw [List.foldl_cons, List.foldl_cons, restoreTag_of_isText hval, restoreTag_of_isText hval']
    at hread
  exact hread

/-- **A negation without quotes.** It is read as nothing, and then restored from its tag. -/
theorem readFrom_bare {n : Node} {predicate state : Text} (htag : isSchemaTag predicate = false)
    (h : n.IsMapping [("predicate", (Node.IsTag · predicate)), ("state", (Node.IsText · state))]) :
    ReadFrom ⟨predicate, state⟩ n := by
  intro scope hactive
  obtain ⟨line, _, rfl, _ | ⟨⟨(hkey : Node.IsText _ "predicate"), hval⟩,
    _ | ⟨⟨(hkey' : Node.IsText _ "state"), hval'⟩, _ | _⟩⟩⟩ := h
  have hread := yields_ofYaml hactive line <|
    .cons hkey (by decide) rfl
      (.bind (Decode.yields_text_of_isTag hactive htag hval _) (Decode.yields_pure _)) <|
    .cons hkey' (by decide) rfl (Decode.yields_field hactive hval' _ _) <| .nil _ _
  rw [List.foldl_cons, List.foldl_cons, restoreTag_of_isTag hkey htag hval,
    restoreTag_of_isText hval'] at hread
  exact hread

theorem block_ne_nil (bare : Bool) (d : TransitionDocument) : d.block bare ≠ [] :=
  List.append_ne_nil_of_right_ne_nil _ (List.cons_ne_nil _ _)

/-- **A transition is read from its block**, whether or not a negation is quoted. -/
theorem shows_block {d : TransitionDocument} (hpredicate : d.predicate.IsSimplePredicate)
    (hstate : d.state.isIdentifier = true) (bare : Bool) :
    ShowsBlock 8 (layout 8 (d.block bare)) d.ReadFrom := by
  obtain ⟨predicate, state⟩ := d
  have htarget : ShowsEntry 8 (entry "state" (Compact.quoted state))
      ("state", (Node.IsText · state)) :=
    showsEntry_quoted (by decide) (over_quotable_of_isIdentifier hstate) 8
  by_cases hempty : predicate = []
  · subst hempty
    exact (showsBlock_mapping (by decide) (List.cons_ne_nil _ _) (.cons htarget .nil)).mono
      fun _ => readFrom_unguarded
  rw [block, if_neg hempty, blockPredicate]
  split
  case isTrue hbare =>
    cases hpredicate with
    | empty => exact absurd rfl hempty
    | name hw => exact absurd hbare.2 (head?_ne_of_isIdentifier hw)
    | @negation w hw =>
      have hvalue : ShowsEntry 8 (entry "predicate" (Predicate.negationMark :: w))
          ("predicate", (Node.IsTag · (Predicate.negationMark :: w))) :=
        .mk (by decide) (showsValue_negation hw 8)
      exact (showsBlock_mapping (by decide) (List.cons_ne_nil _ _)
        (.cons hvalue (.cons htarget .nil))).mono
        fun _ => readFrom_bare (isSchemaTag_of_isIdentifier hw)
  case isFalse =>
    have hvalue : ShowsEntry 8 (entry "predicate" (Compact.quoted predicate))
        ("predicate", (Node.IsText · predicate)) :=
      showsEntry_quoted (by decide) hpredicate.over_quotable 8
    exact (showsBlock_mapping (by decide) (List.cons_ne_nil _ _)
      (.cons hvalue (.cons htarget .nil))).mono fun _ => readFrom_quoted

end TransitionDocument

/-! ## States -/

/-- The state is read from the node. -/
def StateDocument.ReadFrom (d : StateDocument) (n : Node) : Prop :=
  ∀ scope : Scope, scope.active = [] → Decode.Yields (ofYaml scope n) (some d)

namespace StateDocument

/-- A state without transitions. -/
theorem readFrom_final {n : Node} {name run : Text}
    (h : n.IsMapping [("name", (Node.IsText · name)), ("run", (Node.IsText · run))]) :
    ReadFrom ⟨name, run, []⟩ n := by
  intro scope hactive
  obtain ⟨line, _, rfl, _ | ⟨⟨(hkey : Node.IsText _ "name"), hval⟩,
    _ | ⟨⟨(hkey' : Node.IsText _ "run"), hval'⟩, _ | _⟩⟩⟩ := h
  exact yields_ofYaml hactive line <|
    .cons hkey (by decide) rfl (Decode.yields_field hactive hval _ _) <|
    .cons hkey' (by decide) rfl (Decode.yields_field hactive hval' _ _) <| .nil _ _

theorem readFrom_listed {n : Node} {name run : Text} {transitions : List TransitionDocument}
    (h : n.IsMapping [("name", (Node.IsText · name)), ("run", (Node.IsText · run)),
      ("transitions", (Node.IsSequence · (transitions.map TransitionDocument.ReadFrom)))]) :
    ReadFrom ⟨name, run, transitions⟩ n := by
  intro scope hactive
  obtain ⟨line, _, rfl, _ | ⟨⟨(hkey : Node.IsText _ "name"), hval⟩,
    _ | ⟨⟨(hkey' : Node.IsText _ "run"), hval'⟩,
    _ | ⟨⟨(hkey'' : Node.IsText _ "transitions"), hval''⟩, _ | _⟩⟩⟩⟩ := h
  have htransitions : Decode.Yields (Decode.list "[]loader.TransitionDocument"
      TransitionDocument.ofYaml scope _) transitions :=
    Decode.yields_list_of_isSequence hactive (fun t n hn => hn scope hactive) hval''
  exact yields_ofYaml hactive line <|
    .cons hkey (by decide) rfl (Decode.yields_field hactive hval _ _) <|
    .cons hkey' (by decide) rfl (Decode.yields_field hactive hval' _ _) <|
    .cons hkey'' (by decide) rfl (.bind htransitions (Decode.yields_pure _)) <| .nil _ _

/-- **A state is read from its block.** -/
theorem shows_block {d : StateDocument} (hname : d.name.isIdentifier = true)
    (hrun : d.run.isIdentifier = true)
    (htarget : ∀ t ∈ d.transitions, t.state.isIdentifier = true)
    (hpredicate : ∀ t ∈ d.transitions, t.predicate.IsSimplePredicate) (bare : Nat → Bool) :
    ShowsBlock 4 (layout 4 (d.block bare)) d.ReadFrom := by
  obtain ⟨name, run, transitions⟩ := d
  have hfirst : ShowsEntry 4 (entry "name" (Compact.quoted name)) ("name", (Node.IsText · name)) :=
    showsEntry_quoted (by decide) (over_quotable_of_isIdentifier hname) 4
  have hsecond : ShowsEntry 4 (entry "run" (Compact.quoted run)) ("run", (Node.IsText · run)) :=
    showsEntry_quoted (by decide) (over_quotable_of_isIdentifier hrun) 4
  by_cases hempty : transitions = []
  · subst hempty
    exact (showsBlock_mapping (by decide) (List.cons_ne_nil _ _)
      (.cons hfirst (.cons hsecond .nil))).mono fun _ => readFrom_final
  · have hlist : ShowsEntry 4 (layout 4 (listEntry "transitions"
          (transitions.mapIdx fun j => TransitionDocument.block (bare j))))
        ("transitions", (Node.IsSequence · (transitions.map TransitionDocument.ReadFrom))) := by
      refine showsEntry_list (by decide) (by decide) (mt List.mapIdx_eq_nil_iff.mp hempty) ?_
        (forall₂_mapIdx fun j t ht =>
          TransitionDocument.shows_block (hpredicate t ht) (htarget t ht) (bare j))
      intro lines hlines
      obtain ⟨j, hj, rfl⟩ := List.mem_mapIdx.mp hlines
      exact TransitionDocument.block_ne_nil _ _
    rw [block, if_neg hempty, layout_append 4 _ (listEntry_ne_nil _ _)]
    exact (showsBlock_mapping (by decide) (List.cons_ne_nil _ _)
      (.cons hfirst (.cons hsecond (.cons hlist .nil)))).mono fun _ => readFrom_listed

end StateDocument

/-! ## Documents -/

namespace Document

theorem ofGraph_of_isMapping {g : Graph} {d : Document}
    (h : g.root.IsMapping [("start", (Node.IsText · d.start)),
      ("states", (Node.IsSequence · (d.states.map StateDocument.ReadFrom)))]) :
    ofGraph g = .ok d := by
  obtain ⟨line, _, hroot, _ | ⟨⟨(hkey : Node.IsText _ "start"), hval⟩,
    _ | ⟨⟨(hkey' : Node.IsText _ "states"), hval'⟩, _ | _⟩⟩⟩ := h
  have hstates : Decode.Yields (Decode.list "[]loader.StateDocument" StateDocument.ofYaml
      { graph := g } _) d.states :=
    Decode.yields_list_of_isSequence rfl (fun st n hn => hn _ rfl) hval'
  exact ofGraph_of_entries hroot <|
    .cons hkey (by decide) rfl (Decode.yields_field rfl hval _ _) <|
    .cons hkey' (by decide) rfl (.bind hstates (Decode.yields_pure _)) <| .nil _ _

/-- The block form is a block in the first column, and the end of its last line. -/
theorem shows_block {d : Document} (h : d.HasSimpleNames) (bare : Nat → Nat → Bool) :
    ∃ w, d.block bare = w ++ [Text.newline] ∧
      ShowsBlock 0 w (Node.IsMapping · [("start", (Node.IsText · d.start)),
        ("states", (Node.IsSequence · (d.states.map StateDocument.ReadFrom)))]) := by
  have hfirst : ShowsEntry 0 (entry "start" (Compact.quoted d.start))
      ("start", (Node.IsText · d.start)) :=
    showsEntry_quoted (by decide) (over_quotable_of_isIdentifier h.start) 0
  refine ⟨_, unlines_eq_layout (List.cons_ne_nil _ _), ?_⟩
  by_cases hempty : d.states = []
  · have hnothing : ShowsEntry 0 (entry "states" "[]") ("states", (Node.IsSequence · [])) :=
      .mk (by decide) (showsValue_nothing 0)
    rw [if_pos hempty, hempty]
    exact showsBlock_mapping (by decide) (List.cons_ne_nil _ _) (.cons hfirst (.cons hnothing .nil))
  · have hlist : ShowsEntry 0 (layout 0 (listEntry "states"
          (d.states.mapIdx fun i => StateDocument.block (bare i))))
        ("states", (Node.IsSequence · (d.states.map StateDocument.ReadFrom))) := by
      refine showsEntry_list (by decide) (by decide) (mt List.mapIdx_eq_nil_iff.mp hempty) ?_
        (forall₂_mapIdx fun i st hst => StateDocument.shows_block (h.name st hst) (h.run st hst)
          (h.target st hst) (h.predicate st hst) (bare i))
      intro lines hlines
      obtain ⟨i, hi, rfl⟩ := List.mem_mapIdx.mp hlines
      exact List.cons_ne_nil _ _
    rw [if_neg hempty, layout_append 0 _ (listEntry_ne_nil _ _)]
    exact showsBlock_mapping (by decide) (List.cons_ne_nil _ _) (.cons hfirst (.cons hlist .nil))

theorem ofYaml_block {d : Document} (h : d.HasSimpleNames) (bare : Nat → Nat → Bool) :
    ofYaml (d.block bare) = .ok d := by
  obtain ⟨w, hblock, hshowing, lexemes, hscans, hbuilds⟩ := d.shows_block h bare
  have hall : (w ++ [Text.newline]).Over isShowingByte := hshowing.append (by decide)
  obtain ⟨n, hn, htokens⟩ := Graph.exists_of_buildsBlock hbuilds (Token.scan_of_blockScans hscans)
  rw [ofYaml, hblock, CharStream.ofText_of_showing hall, htokens]
  exact ofGraph_of_isMapping hn

theorem isBlank_block (bare : Nat → Nat → Bool) (d : Document) :
    (d.block bare).isBlank = false := by
  have hfirst : ∀ s, Text.runes (0x73 :: s) = .char 's' :: Text.runes s :=
    Text.runes_encode_append 's'
  obtain ⟨rest, hrest⟩ : ∃ rest, d.block bare = 0x73 :: rest := ⟨_, rfl⟩
  rw [Text.isBlank, hrest, hfirst]
  rfl

end Document

/-- **A document is read back from its block form**, whichever of its negations stand without
quotes. -/
theorem block_roundTrip {d : Document} (h : d.HasSimpleNames) (bare : Nat → Nat → Bool) :
    Document.parse .yaml (d.block bare) = .ok d := by
  simp only [Document.parse, d.isBlank_block bare, Document.ofYaml_block h bare]
  rfl

/-- A latch that stays shut while either of two conditions fails. -/
def latchDocument : Document where
  start := "SHUT"
  states :=
    [{ name := "SHUT", run := "hold_1"
       transitions := [⟨"!coin", "SHUT"⟩, ⟨"!key", "SHUT"⟩, ⟨"armed", "SHUT"⟩, ⟨"", "_open"⟩] },
     { name := "_open", run := "rest" }]

theorem latchDocument_hasSimpleNames : latchDocument.HasSimpleNames where
  start := by decide
  name := by decide
  run := by decide
  target := by decide
  predicate := by
    simp only [latchDocument, List.forall_mem_cons, List.not_mem_nil, false_imp_iff, implies_true,
      and_true]
    exact ⟨.negation (by decide), .negation (by decide), .name (by decide), .empty⟩

theorem latchDocument_block_roundTrip :
    latchDocument.block (fun _ j => j == 1) =
      "start: \"SHUT\"\n" ++
      "states:\n" ++
      "  - name: \"SHUT\"\n" ++
      "    run: \"hold_1\"\n" ++
      "    transitions:\n" ++
      "      - predicate: \"!coin\"\n" ++
      "        state: \"SHUT\"\n" ++
      "      - predicate: !key\n" ++
      "        state: \"SHUT\"\n" ++
      "      - predicate: \"armed\"\n" ++
      "        state: \"SHUT\"\n" ++
      "      - state: \"_open\"\n" ++
      "  - name: \"_open\"\n" ++
      "    run: \"rest\"\n" ∧
    latchDocument.HasSimpleNames ∧
    Document.parse .yaml (latchDocument.block fun _ j => j == 1) = .ok latchDocument :=
  ⟨by decide +kernel, latchDocument_hasSimpleNames, block_roundTrip latchDocument_hasSimpleNames _⟩

end StateForge
