import StateForge.Document.Load
import StateForge.Proofs.Compact.Json
import StateForge.Proofs.Compact.Nodes
import StateForge.Proofs.Compact.Tokens
import StateForge.Proofs.Yaml.Loading

/-!
# The two formats agree

A document in its compact form is JSON, and it is YAML in flow style. Both readers give the document
back (`formats_agree`), though they have nothing in common: one reads values from the text directly,
the other by way of tokens and nodes.

`Yaml.Shows w n` joins the three stages of the second reader: the bytes of the text are accepted, it
is cut into tokens, and the tokens are put together to a node. Each of the three forms of the
compact rendering keeps it.
-/

set_option autoImplicit false

namespace StateForge

namespace Yaml

open StateForge.Compact

/-! ## From texts to nodes -/

/-- The text is the node, in a flow collection or alone. `depth` is how deep collections are nested
in it. -/
structure Shows (depth : Nat) (w : Text) (n : Node) : Prop where
  showing : w.Over isShowingByte
  read : ∃ lexemes, ScanState.Scans depth w lexemes ∧
    Compose.Composes (lexemes.map (Token.mk 0)) n

/-- A string in quotes, as a node. -/
def Node.quoted (s : Text) : Node :=
  .scalar 1 schema.str false s

theorem over_showing_of_quotable {s : Text} (h : s.Over isQuotable) : s.Over isShowingByte := by
  refine h.imp fun b hb => isShowingByte_iff.mpr ?_
  have := isQuotable_iff.mp hb
  omega

theorem over_showing_quoted {s : Text} (h : s.Over isQuotable) :
    (Compact.quoted s).Over isShowingByte :=
  .append (List.forall_mem_cons.mpr ⟨by decide, over_showing_of_quotable h⟩) (by decide)

theorem shows_quoted {s : Text} (h : s.Over isQuotable) (depth : Nat) :
    Shows depth (Compact.quoted s) (.quoted s) where
  showing := over_showing_quoted h
  read := ⟨_, ScanState.scans_quoted h depth, Compose.composes_quoted 0 s⟩

theorem map_intercalate {α β : Type} (f : α → β) (sep : α) (ls : List (List α)) :
    (List.intercalate [sep] ls).map f = List.intercalate [f sep] (ls.map (List.map f)) := by
  cases ls with
  | nil => rfl
  | cons l ls =>
    rw [List.map_cons, intercalate_cons, intercalate_cons, List.map_append, List.map_flatMap,
      List.flatMap_map]
    rfl

theorem exists_forall₂ {α β γ : Type} {r : α → β → Prop} {q : β → γ → Prop} {as : List α}
    {cs : List γ} (h : List.Forall₂ (fun a c => ∃ b, r a b ∧ q b c) as cs) :
    ∃ bs, List.Forall₂ r as bs ∧ List.Forall₂ q bs cs := by
  induction h with
  | nil => exact ⟨[], .nil, .nil⟩
  | cons hac _ ih =>
    obtain ⟨b, hab, hbc⟩ := hac
    obtain ⟨bs, habs, hbcs⟩ := ih
    exact ⟨b :: bs, .cons hab habs, .cons hbc hbcs⟩

theorem shows_list {depth : Nat} {ws : List Text} {ns : List Node}
    (h : List.Forall₂ (Shows depth) ws ns) :
    Shows (depth + 1) (list ws) (.sequence 1 schema.seq ns) where
  showing := by
    have hws : ∀ w ∈ ws, w.Over isShowingByte :=
      ((List.forall₂_and_left _ _).mp (h.imp fun _ _ hw => ⟨hw.showing, hw⟩)).1
    exact .append (List.forall_mem_cons.mpr ⟨by decide, Text.Over.intercalate (by decide) hws⟩)
      (by decide)
  read := by
    obtain ⟨lss, hscans, hcomposes⟩ := exists_forall₂ (h.imp fun _ _ hw => hw.read)
    refine ⟨_, ScanState.scans_list hscans, ?_⟩
    rw [List.map_append, List.map_cons, map_intercalate]
    exact Compose.composes_sequence 0 (List.forall₂_map_left_iff.mpr hcomposes)

/-- The member is the entry. -/
structure ShowsMember (depth : Nat) (m : Text × Text) (e : Node × Node) : Prop where
  key_eq : e.1 = .quoted m.1
  name_ok : m.1.Over isQuotable
  short : m.1.length ≤ 1000
  value : Shows depth m.2 e.2

theorem showsMember {depth : Nat} {name w : Text} {n : Node} (hname : name.Over isQuotable)
    (hshort : name.length ≤ 1000) (h : Shows depth w n) :
    ShowsMember depth (name, w) (.quoted name, n) :=
  ⟨rfl, hname, hshort, h⟩

theorem ShowsMember.showing {depth : Nat} {m : Text × Text} {e : Node × Node}
    (h : ShowsMember depth m e) : (member m).Over isShowingByte :=
  (shows_quoted h.name_ok depth).showing.append
    (List.forall_mem_cons.mpr ⟨by decide, h.value.showing⟩)

theorem shows_record {depth : Nat} {ms : List (Text × Text)} {es : List (Node × Node)}
    (h : List.Forall₂ (ShowsMember depth) ms es) :
    Shows (depth + 1) (record ms) (.mapping 1 schema.map es) where
  showing := by
    have hms : ∀ m ∈ ms, (member m).Over isShowingByte :=
      ((List.forall₂_and_left _ _).mp (h.imp fun _ _ hm => ⟨hm.showing, hm⟩)).1
    exact .append (List.forall_mem_cons.mpr
      ⟨by decide, Text.Over.intercalate (by decide) (List.forall_mem_map.mpr hms)⟩) (by decide)
  read := by
    obtain ⟨ps, hscans, hcomposes⟩ : ∃ ps, List.Forall₂ (ScanState.ScansMember depth) ms ps ∧
        List.Forall₂ (fun p e => Compose.ComposesMember 0 (p.1, p.2.map (Token.mk 0)) e) ps es := by
      refine exists_forall₂ (h.imp fun m e hm => ?_)
      obtain ⟨lexemes, hscans, hcomposes⟩ := hm.value.read
      exact ⟨(m.1, lexemes), ⟨rfl, hm.name_ok, hm.short, hscans⟩, hm.key_eq, hcomposes⟩
    refine ⟨_, ScanState.scans_record hscans, ?_⟩
    have hmapping := Compose.composes_mapping 0 (List.forall₂_map_left_iff.mpr hcomposes)
    rw [List.map_map] at hmapping
    rw [List.map_append, List.map_cons, map_intercalate, List.map_map]
    exact hmapping

end Yaml

/-! ## Documents -/

open Yaml

/-- A transition as a node. -/
def TransitionDocument.toNode (d : TransitionDocument) : Node :=
  .mapping 1 schema.map
    [(.quoted "predicate", .quoted d.predicate), (.quoted "state", .quoted d.state)]

/-- A state as a node. -/
def StateDocument.toNode (d : StateDocument) : Node :=
  .mapping 1 schema.map [(.quoted "name", .quoted d.name), (.quoted "run", .quoted d.run),
    (.quoted "transitions", .sequence 1 schema.seq (d.transitions.map TransitionDocument.toNode))]

/-- The entries of a document. -/
def Document.toEntries (d : Document) : List (Node × Node) :=
  [(.quoted "start", .quoted d.start),
    (.quoted "states", .sequence 1 schema.seq (d.states.map StateDocument.toNode))]

theorem TransitionDocument.shows_compact {d : TransitionDocument} (h : d.IsQuotable) :
    Shows 1 d.compact d.toNode :=
  shows_record (.cons (showsMember (by decide) (by decide) (shows_quoted h.predicate 0))
    (.cons (showsMember (by decide) (by decide) (shows_quoted h.state 0)) .nil))

theorem StateDocument.shows_compact {d : StateDocument} (h : d.IsQuotable) :
    Shows 3 d.compact d.toNode := by
  have htransitions : Shows 2 (Compact.list (d.transitions.map TransitionDocument.compact))
      (.sequence 1 schema.seq (d.transitions.map TransitionDocument.toNode)) := by
    refine shows_list (List.forall₂_map_left_iff.mpr (List.forall₂_map_right_iff.mpr ?_))
    exact List.forall₂_same.mpr fun t ht => TransitionDocument.shows_compact (h.transitions t ht)
  exact shows_record (.cons (showsMember (by decide) (by decide) (shows_quoted h.name 2))
    (.cons (showsMember (by decide) (by decide) (shows_quoted h.run 2))
      (.cons (showsMember (by decide) (by decide) htransitions) .nil)))

theorem Document.shows_compact {d : Document} (h : d.IsQuotable) :
    Shows 5 d.compact (.mapping 1 schema.map d.toEntries) := by
  have hstates : Shows 4 (Compact.list (d.states.map StateDocument.compact))
      (.sequence 1 schema.seq (d.states.map StateDocument.toNode)) := by
    refine shows_list (List.forall₂_map_left_iff.mpr (List.forall₂_map_right_iff.mpr ?_))
    exact List.forall₂_same.mpr fun st hst => StateDocument.shows_compact (h.states st hst)
  exact shows_record (.cons (showsMember (by decide) (by decide) (shows_quoted h.start 4))
    (.cons (showsMember (by decide) (by decide) hstates) .nil))

/-! ## Reading the nodes back -/

theorem TransitionDocument.yields_toNode {scope : Scope} (hactive : scope.active = [])
    (d : TransitionDocument) : Decode.Yields (ofYaml scope d.toNode) (some d) :=
  TransitionDocument.yields_ofYaml hactive 1 <|
    .cons ⟨1, rfl⟩ (by decide) rfl (Decode.yields_field hactive ⟨1, rfl⟩ _ _) <|
    .cons ⟨1, rfl⟩ (by decide) rfl (Decode.yields_field hactive ⟨1, rfl⟩ _ _) <| .nil _ _

theorem StateDocument.yields_toNode {scope : Scope} (hactive : scope.active = [])
    (d : StateDocument) : Decode.Yields (ofYaml scope d.toNode) (some d) := by
  have htransitions : List.Forall₂
      (fun n t => Decode.Yields (TransitionDocument.ofYaml scope n) (some t))
      (d.transitions.map TransitionDocument.toNode) d.transitions :=
    List.forall₂_map_left_iff.mpr (List.forall₂_same.mpr fun t _ => t.yields_toNode hactive)
  exact StateDocument.yields_ofYaml hactive 1 <|
    .cons ⟨1, rfl⟩ (by decide) rfl (Decode.yields_field hactive ⟨1, rfl⟩ _ _) <|
    .cons ⟨1, rfl⟩ (by decide) rfl (Decode.yields_field hactive ⟨1, rfl⟩ _ _) <|
    .cons ⟨1, rfl⟩ (by decide) rfl
      (.bind (Decode.yields_list hactive 1 schema.seq htransitions) (Decode.yields_pure _)) <|
    .nil _ _

theorem Document.ofGraph_toEntries {g : Graph} {d : Document}
    (hroot : g.root = .mapping 1 schema.map d.toEntries) : ofGraph g = .ok d := by
  have hstates : List.Forall₂
      (fun n st => Decode.Yields (StateDocument.ofYaml { graph := g } n) (some st))
      (d.states.map StateDocument.toNode) d.states :=
    List.forall₂_map_left_iff.mpr (List.forall₂_same.mpr fun st _ => st.yields_toNode rfl)
  exact ofGraph_of_entries hroot <|
    .cons ⟨1, rfl⟩ (by decide) rfl (Decode.yields_field rfl ⟨1, rfl⟩ _ _) <|
    .cons ⟨1, rfl⟩ (by decide) rfl
      (.bind (Decode.yields_list rfl 1 schema.seq hstates) (Decode.yields_pure _)) <|
    .nil _ _

/-! ## The two readers -/

/-- **A document in its compact form is read back from it as YAML.** -/
theorem Document.ofYaml_compact {d : Document} (h : d.IsQuotable) : ofYaml d.compact = .ok d := by
  obtain ⟨hshowing, lexemes, hscans, hcomposes⟩ := shows_compact h
  have hne : d.compact ≠ [] := List.cons_ne_nil _ _
  rw [ofYaml, CharStream.ofText_of_showing hshowing,
    Token.scan_of_scans hscans (by decide) hne, Graph.ofTokens?_of_composes hcomposes]
  exact ofGraph_toEntries rfl

theorem Document.isBlank_compact (d : Document) : d.compact.isBlank = false := by
  have hbrace : ∀ s, Text.runes (0x7b :: s) = .char '{' :: Text.runes s :=
    Text.runes_encode_append '{'
  rw [Text.isBlank, compact, Compact.record, List.cons_append, hbrace]
  rfl

/-- **The two formats agree.** The compact form of a document with simple names is read back as the
document in either format, so it describes the same machine, or none for the same reason. -/
theorem formats_agree {d : Document} (h : d.HasSimpleNames) :
    Document.parse .json d.compact = .ok d ∧
    Document.parse .yaml d.compact = .ok d ∧
    Machine.decode .json d.compact = Machine.decode .yaml d.compact := by
  have hjson : Document.parse .json d.compact = .ok d := by
    simp only [Document.parse, d.isBlank_compact, Document.ofJson_compact h.isQuotable]
    rfl
  have hyaml : Document.parse .yaml d.compact = .ok d := by
    simp only [Document.parse, d.isBlank_compact, Document.ofYaml_compact h.isQuotable]
    rfl
  exact ⟨hjson, hyaml, by rw [Machine.decode, Machine.decode, hjson, hyaml]⟩

/-- A gate that opens for a coin and stays open. -/
def gateDocument : Document where
  start := "shut"
  states :=
    [{ name := "shut", run := "hold_1"
       transitions := [⟨"!coin", "shut"⟩, ⟨"coin", "_open"⟩, ⟨"", "shut"⟩] },
     { name := "_open", run := "rest" }]

theorem gateDocument_hasSimpleNames : gateDocument.HasSimpleNames where
  start := by decide
  name := by decide
  run := by decide
  target := by decide
  predicate := by
    simp only [gateDocument, List.forall_mem_cons, List.not_mem_nil, false_imp_iff, implies_true,
      and_true]
    exact ⟨.negation (by decide), .name (by decide), .empty⟩

theorem gateDocument_formats_agree :
    gateDocument.compact = "\x7b\"start\":\"shut\",\"states\":[" ++
      "\x7b\"name\":\"shut\",\"run\":\"hold_1\",\"transitions\":[" ++
        "\x7b\"predicate\":\"!coin\",\"state\":\"shut\"\x7d," ++
        "\x7b\"predicate\":\"coin\",\"state\":\"_open\"\x7d," ++
        "\x7b\"predicate\":\"\",\"state\":\"shut\"\x7d]\x7d," ++
      "\x7b\"name\":\"_open\",\"run\":\"rest\",\"transitions\":[]\x7d]\x7d" ∧
    gateDocument.HasSimpleNames ∧
    Document.parse .json gateDocument.compact = .ok gateDocument ∧
    Document.parse .yaml gateDocument.compact = .ok gateDocument ∧
    Machine.decode .json gateDocument.compact = Machine.decode .yaml gateDocument.compact :=
  ⟨by decide +kernel, gateDocument_hasSimpleNames, formats_agree gateDocument_hasSimpleNames⟩

end StateForge
