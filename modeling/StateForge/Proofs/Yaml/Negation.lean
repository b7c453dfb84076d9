import StateForge.Document.Load
import StateForge.Proofs.Yaml.Reading
import StateForge.Proofs.Yaml.Words

/-!
# Negations that are not quoted

To YAML, the exclamation mark of a negation that is not quoted starts a tag. The tag is put back in
front of the text of a predicate, but only where both are written in the entry of the transition
itself: a predicate that comes by way of an alias, or out of a mapping that is merged, loses it. A
mark that stands alone and a tag of the schema are not put back at all.

* `Node.shownPredicate?` is what the entries of a mapping show with a tag, and
  `predicate_foldl_restoreTag` says that nothing else is put back.
* `Graph.LoadsTransition`, `Graph.LoadsState` and `Graph.LoadsDocument` say which document the nodes
  of a text describe, field by field. `Document.loadsDocument_of_ofGraph` says that a document that
  is accepted is loaded so.
* `LoadsTagged` is what becomes of a tag in front of a predicate, for every kind of tag: when it is
  kept, when that is what was written, and what is left when it is not. The main result is
  `unquotedNegation_kept_iff`, and `aliased_negation_lost` is a document that is not loaded as it is
  written.
-/

set_option autoImplicit false

namespace StateForge

open Yaml

/-! ## Texts that start with a mark -/

theorem Text.trim_mark (s : Text) :
    ∃ rest, Text.trim (Predicate.negationMark :: s) = Predicate.negationMark :: rest := by
  have hrunes : Text.runes (Predicate.negationMark :: s) = .char '!' :: Text.runes s := by
    rw [Text.runes.eq_def]
    rfl
  have hfirst : (Text.runes (Predicate.negationMark :: s)).dropWhile Rune.isBlank
      = .char '!' :: Text.runes s := by
    rw [hrunes, List.dropWhile_cons_of_neg (by decide)]
  rw [Text.trim, Text.trimRunes, hfirst, List.reverse_cons, List.dropWhile_append]
  split
  · exact ⟨[], by decide⟩
  · refine ⟨Text.ofRunes (((Text.runes s).reverse.dropWhile Rune.isBlank).reverse), ?_⟩
    rw [List.reverse_append]
    rfl

/-- A text that starts with the mark is a negation, if it is a predicate at all. -/
theorem Predicate.negated_of_parse {s : Text} {p : Predicate}
    (h : Predicate.parse (negationMark :: s) = .ok p) : p.negated = true ∧ p.name ≠ [] := by
  obtain ⟨rest, hrest⟩ := Text.trim_mark s
  simp only [parse, hrest, if_true] at h
  split at h
  · exact nomatch h
  · cases h
    exact ⟨rfl, ‹_›⟩

/-! ## Transitions -/

namespace Yaml

/-- The text of a scalar with its tag in front, if the tag is written and none of the schema's. -/
def Node.tagged? : Node → Option Text
  | .scalar _ tag true text =>
    if (Text.ofString "!!").isPrefixOf tag then none else some (tag ++ text)
  | _ => none

/-- The predicate that an entry shows with its tag. -/
def shownPredicate? (entry : Node × Node) : Option Text :=
  if entry.1.text == Text.ofString "predicate" then entry.2.tagged? else none

/-- The predicate that a mapping shows with its tag: the last one counts. -/
def Node.shownPredicate? : Node → Option Text
  | .mapping _ tag entries =>
    if tag == schema.null then none else (entries.filterMap Yaml.shownPredicate?).getLast?
  | _ => none

/-- The last entry under a key that is written `predicate` is shown. -/
theorem Node.shownPredicate?_of_last {line : Nat} {own shown : Text} {entry : Node × Node}
    {before after : List (Node × Node)} (hown : own ≠ schema.null)
    (hentry : Yaml.shownPredicate? entry = some shown)
    (hafter : ∀ entry ∈ after, entry.1.text ≠ Text.ofString "predicate") :
    (Node.mapping line own (before ++ entry :: after)).shownPredicate? = some shown := by
  have hnone : after.filterMap Yaml.shownPredicate? = [] := by
    refine List.filterMap_eq_nil_iff.mpr fun entry hmem => ?_
    rw [Yaml.shownPredicate?, if_neg (by simpa using hafter entry hmem)]
  rw [shownPredicate?, if_neg (by simpa using hown), List.filterMap_append,
    List.filterMap_cons_some hentry, hnone, List.getLast?_concat]

end Yaml

namespace TransitionDocument

theorem predicate_restoreTag (entry : Node × Node) (d : TransitionDocument) :
    (restoreTag entry d).predicate = (shownPredicate? entry).getD d.predicate := by
  obtain ⟨key, val⟩ := entry
  cases val with
  | scalar line tag tagged text =>
    cases tagged with
    | false => simp [restoreTag, shownPredicate?, Node.tagged?]
    | true =>
      simp only [restoreTag, shownPredicate?, Node.tagged?]
      cases key.text == Text.ofString "predicate" with
      | false => rfl
      | true => cases (Text.ofString "!!").isPrefixOf tag <;> rfl
  | _ => simp [restoreTag, shownPredicate?, Node.tagged?]

theorem predicate_foldl_restoreTag (entries : List (Node × Node)) (d : TransitionDocument) :
    (entries.foldl (fun d e => restoreTag e d) d).predicate
      = ((entries.filterMap shownPredicate?).getLast?).getD d.predicate := by
  induction entries generalizing d with
  | nil => rfl
  | cons entry rest ih =>
    rw [List.foldl_cons, ih, predicate_restoreTag, List.filterMap_cons]
    cases shownPredicate? entry with
    | none => rfl
    | some shown => rw [List.getLast?_cons]; rfl

theorem state_foldl_restoreTag (entries : List (Node × Node)) (d : TransitionDocument) :
    (entries.foldl (fun d e => restoreTag e d) d).state = d.state := by
  have hone : ∀ (entry : Node × Node) (d : TransitionDocument),
      (restoreTag entry d).state = d.state := by
    intro entry d
    unfold restoreTag
    split
    · split <;> rfl
    · rfl
  induction entries generalizing d with
  | nil => rfl
  | cons entry rest ih => rw [List.foldl_cons, ih, hone]

end TransitionDocument

namespace Yaml.Graph

/-- **The transition that a node describes**: its predicate is what the mapping shows with a tag, or
else the text of the value that the mapping has. There is no transition if there is no mapping. -/
inductive LoadsTransition (g : Graph) (t : Node) : Option TransitionDocument → Prop
  | skipped {n : Node} (hn : g.deref? t = some n) (h : g.isMapping n = false) :
      LoadsTransition g t none
  | loaded {n : Node} {v? : Option Node} {d : TransitionDocument} (hn : g.deref? t = some n)
      (h : g.isMapping n = true) (hv : g.Gives "predicate" [n] v?)
      (hpredicate : d.predicate = n.shownPredicate?.getD ((v?.bind g.string?).getD []))
      (hstate : g.TextUnder "state" n d.state) : LoadsTransition g t (some d)

/-- **The state that a node describes.** There is none if there is no mapping. -/
inductive LoadsState (g : Graph) (n : Node) : Option StateDocument → Prop
  | skipped (h : g.isMapping n = false) : LoadsState g n none
  | loaded {d : StateDocument} (h : g.isMapping n = true) (hname : g.TextUnder "name" n d.name)
      (hrun : g.TextUnder "run" n d.run)
      (htransitions : g.ListsUnder "transitions" g.LoadsTransition n d.transitions) :
      LoadsState g n (some d)

/-- **The document that the nodes of a text describe.** -/
structure LoadsDocument (g : Graph) (d : Document) : Prop where
  start : g.TextUnder "start" g.root d.start
  states : g.ListsUnder "states" g.LoadsState g.root d.states

end Yaml.Graph

namespace TransitionDocument

open Decode

/-- Reading a field changes no other one. -/
theorem ensures_field : ∀ field ∈ yamlFields, ∀ (scope : Scope) (n : Node)
    (old : TransitionDocument), Ensures (field.2 scope n old) fun new =>
      (field.1 ≠ Text.ofString "predicate" → new.predicate = old.predicate) ∧
      (field.1 ≠ Text.ofString "state" → new.state = old.state) := by
  intro field hfield scope n old
  rw [yamlFields, List.mem_cons, List.mem_singleton] at hfield
  rcases hfield with rfl | rfl
  · exact .bind (ensures_text scope n _) fun _ => ensures_pure fun _ =>
      ⟨fun h => absurd rfl h, fun _ => rfl⟩
  · exact .bind (ensures_text scope n _) fun _ => ensures_pure fun _ =>
      ⟨fun _ => rfl, fun h => absurd rfl h⟩

theorem sets_predicate : Sets yamlFields "predicate" predicate ReadsText where
  own := ⟨_, rfl, fun scope n _ => .bind (ensures_text scope n _) fun _ => ensures_pure fun h => h⟩
  others := fun field hfield hother scope n old =>
    (ensures_field field hfield scope n old).mono fun _ h => h.1 hother

theorem sets_state : Sets yamlFields "state" state ReadsText where
  own := ⟨_, rfl, fun scope n _ => .bind (ensures_text scope n _) fun _ => ensures_pure fun h => h⟩
  others := fun field hfield hother scope n old =>
    (ensures_field field hfield scope n old).mono fun _ h => h.2 hother

/-- A transition before its tag is put back. -/
theorem ensures_record (type : Text) (fuel : Nat) (scope : Scope) (n : Node) :
    Ensures (record type yamlFields fuel scope none n {}) fun result =>
      result.1.isSome = scope.graph.isMapping n ∧
      ∀ d, result.1 = some d → scope.graph.TextUnder "predicate" n d.predicate ∧
        scope.graph.TextUnder "state" n d.state := by
  refine ((Decode.ensures_record sets_predicate (by decide) type fuel scope none n {}).and
    (Decode.ensures_record sets_state (by decide) type fuel scope none n {})).mono ?_
  rintro ⟨d?, given?⟩ ⟨hpredicate, hstate⟩
  refine ⟨hpredicate.2, ?_⟩
  rintro d rfl
  exact ⟨textUnder_of_reads hpredicate rfl, textUnder_of_reads hstate rfl⟩

/-- The entries of a transition that is read may show a predicate with its tag. -/
theorem ensures_ofNode (scope : Scope) (n : Node) :
    Ensures (ofNode scope n) fun d? =>
      d?.isSome = scope.graph.isMapping n ∧
      ∀ d, d? = some d → (∃ v?, scope.graph.Gives "predicate" [n] v? ∧
        d.predicate = ((n.entries.filterMap shownPredicate?).getLast?).getD
          ((v?.bind scope.graph.string?).getD [])) ∧ scope.graph.TextUnder "state" n d.state := by
  refine .bind (ensures_lift _) fun ⟨⟨d?, given?⟩, tally⟩ => ?_
  refine .bind (ensures_modify _) fun _ => ?_
  split
  · rename_i hcomplaints
    exact ensures_pure fun hquiet => absurd hquiet (bne_iff_ne.mp hcomplaints)
  · split
    · refine ensures_pure fun hquiet hrun => ?_
      obtain ⟨hsome, hfields⟩ := (ensures_record _ _ _ _ _ _ _ hrun).2 hquiet
      refine ⟨by rw [Option.isSome_map]; exact hsome, fun d hd => ?_⟩
      obtain ⟨d', hd', rfl⟩ := Option.map_eq_some_iff.mp hd
      obtain ⟨⟨v?, hv, hpredicate⟩, hstate⟩ := hfields d' hd'
      rw [predicate_foldl_restoreTag, state_foldl_restoreTag, hpredicate]
      exact ⟨⟨v?, hv, rfl⟩, hstate⟩
    · rename_i hother
      refine ensures_pure fun hquiet hrun => ?_
      have hreads := (ensures_record _ _ _ _ _ _ _ hrun).2 hquiet
      cases n with
      | mapping line tag pairs => exact absurd rfl (hother line tag pairs)
      | _ => exact hreads

/-- **A transition is loaded as its node describes it.** -/
theorem ensures_ofYaml (scope : Scope) (n : Node) :
    Ensures (ofYaml scope n) (scope.graph.LoadsTransition n) := by
  refine .bind (ensures_follow scope n) fun ⟨scope', n'⟩ => ?_
  have hnull : Ensures (isNullNode n') fun null =>
      n'.shownPredicate?
        = if null then none else (n'.entries.filterMap shownPredicate?).getLast? := by
    cases n' with
    | scalar => exact ensures_pure (ite_self _).symm
    | sequence => exact ensures_pure (ite_self _).symm
    | _ => exact ensures_pure rfl
  refine .bind hnull fun null => ?_
  -- both ways of reading give the same fields, but for what is shown
  have hloads : ∀ d? : Option TransitionDocument, d?.isSome = scope'.graph.isMapping n' →
      (∀ d, d? = some d → (∃ v?, scope'.graph.Gives "predicate" [n'] v? ∧
        d.predicate = n'.shownPredicate?.getD ((v?.bind scope'.graph.string?).getD [])) ∧
        scope'.graph.TextUnder "state" n' d.state) →
      scope'.graph = scope.graph ∧ scope.graph.deref? n = some n' →
      scope.graph.LoadsTransition n d? := by
    rintro d? hsome hd ⟨hgraph, hn⟩
    rw [hgraph] at hsome hd
    cases d? with
    | none => exact .skipped hn hsome.symm
    | some d =>
      obtain ⟨⟨v?, hv, hpredicate⟩, hstate⟩ := hd d rfl
      exact .loaded hn hsome.symm hv hpredicate hstate
  split
  · refine .bind (ensures_record _ _ scope' n') fun ⟨d?, given?⟩ => ensures_pure ?_
    rintro ⟨hsome, hfields⟩ hshown
    refine hloads d? hsome fun d hd => ?_
    rw [hshown]
    exact hfields d hd
  · refine (ensures_ofNode scope' n').mono ?_
    rintro d? ⟨hsome, hd⟩ hshown
    refine hloads d? hsome ?_
    rw [hshown]
    exact hd

end TransitionDocument

/-! ## Documents -/

namespace StateDocument

open Decode

/-- Reading a field changes no other one. -/
theorem ensures_field : ∀ field ∈ yamlFields, ∀ (scope : Scope) (n : Node) (old : StateDocument),
    Ensures (field.2 scope n old) fun new =>
      (field.1 ≠ Text.ofString "name" → new.name = old.name) ∧
      (field.1 ≠ Text.ofString "run" → new.run = old.run) ∧
      (field.1 ≠ Text.ofString "transitions" → new.transitions = old.transitions) := by
  intro field hfield scope n old
  rw [yamlFields, List.mem_cons, List.mem_cons, List.mem_singleton] at hfield
  rcases hfield with rfl | rfl | rfl
  · exact .bind (ensures_text scope n _) fun _ => ensures_pure fun _ =>
      ⟨fun h => absurd rfl h, fun _ => rfl, fun _ => rfl⟩
  · exact .bind (ensures_text scope n _) fun _ => ensures_pure fun _ =>
      ⟨fun _ => rfl, fun h => absurd rfl h, fun _ => rfl⟩
  · exact .bind (ensures_list TransitionDocument.ensures_ofYaml scope n) fun _ =>
      ensures_pure fun _ => ⟨fun _ => rfl, fun _ => rfl, fun h => absurd rfl h⟩

theorem sets_name : Sets yamlFields "name" name ReadsText where
  own := ⟨_, rfl, fun scope n _ => .bind (ensures_text scope n _) fun _ => ensures_pure fun h => h⟩
  others := fun field hfield hother scope n old =>
    (ensures_field field hfield scope n old).mono fun _ h => h.1 hother

theorem sets_run : Sets yamlFields "run" run ReadsText where
  own := ⟨_, rfl, fun scope n _ => .bind (ensures_text scope n _) fun _ => ensures_pure fun h => h⟩
  others := fun field hfield hother scope n old =>
    (ensures_field field hfield scope n old).mono fun _ h => h.2.1 hother

theorem sets_transitions :
    Sets yamlFields "transitions" transitions (ReadsList Graph.LoadsTransition) where
  own := ⟨_, rfl, fun scope n _ => .bind (ensures_list TransitionDocument.ensures_ofYaml scope n)
    fun _ => ensures_pure fun h => h⟩
  others := fun field hfield hother scope n old =>
    (ensures_field field hfield scope n old).mono fun _ h => h.2.2 hother

/-- **A state is loaded as its node describes it.** -/
theorem ensures_ofYaml (scope : Scope) (n : Node) :
    Ensures (ofYaml scope n) (scope.graph.LoadsState n) := by
  refine .bind ((ensures_record sets_name (by decide) _ _ scope none n {}).and
    ((ensures_record sets_run (by decide) _ _ scope none n {}).and
      (ensures_record sets_transitions (by decide) _ _ scope none n {})))
    fun ⟨d?, given?⟩ => ensures_pure ?_
  rintro ⟨hname, hrun, htransitions⟩
  cases d? with
  | none => exact .skipped hname.2.symm
  | some d =>
    exact .loaded hname.2.symm (textUnder_of_reads hname rfl) (textUnder_of_reads hrun rfl)
      (listsUnder_of_reads htransitions rfl)

end StateDocument

namespace Document

open Decode

/-- Reading a field changes no other one. -/
theorem ensures_field : ∀ field ∈ yamlFields, ∀ (scope : Scope) (n : Node) (old : Document),
    Ensures (field.2 scope n old) fun new =>
      (field.1 ≠ Text.ofString "start" → new.start = old.start) ∧
      (field.1 ≠ Text.ofString "states" → new.states = old.states) := by
  intro field hfield scope n old
  rw [yamlFields, List.mem_cons, List.mem_singleton] at hfield
  rcases hfield with rfl | rfl
  · exact .bind (ensures_text scope n _) fun _ => ensures_pure fun _ =>
      ⟨fun h => absurd rfl h, fun _ => rfl⟩
  · exact .bind (ensures_list StateDocument.ensures_ofYaml scope n) fun _ => ensures_pure fun _ =>
      ⟨fun _ => rfl, fun h => absurd rfl h⟩

theorem sets_start : Sets yamlFields "start" start ReadsText where
  own := ⟨_, rfl, fun scope n _ => .bind (ensures_text scope n _) fun _ => ensures_pure fun h => h⟩
  others := fun field hfield hother scope n old =>
    (ensures_field field hfield scope n old).mono fun _ h => h.1 hother

theorem sets_states : Sets yamlFields "states" states (ReadsList Graph.LoadsState) where
  own := ⟨_, rfl, fun scope n _ => .bind (ensures_list StateDocument.ensures_ofYaml scope n)
    fun _ => ensures_pure fun h => h⟩
  others := fun field hfield hother scope n old =>
    (ensures_field field hfield scope n old).mono fun _ h => h.2 hother

/-- **A document is loaded as its nodes describe it.** -/
theorem loadsDocument_of_ofGraph {g : Graph} {d : Document} (h : ofGraph g = .ok d) :
    g.LoadsDocument d := by
  have hreading := fun type fuel => (ensures_visit { graph := g }).bind fun _ =>
    ((ensures_record sets_start (by decide) type fuel { graph := g } none g.root {}).and
      (ensures_record sets_states (by decide) type fuel { graph := g } none g.root {})).mono
      fun _ hreads _ => hreads
  rw [ofGraph] at h
  split at h
  · exact nomatch h
  · rename_i d? given? tally hrun
    split at h
    · rename_i hquiet
      cases h
      obtain ⟨hstart, hstates⟩ := (hreading _ _ _ _ _ hrun).2 (beq_iff_eq.mp hquiet)
      exact ⟨textUnder_of_reads hstart rfl, listsUnder_of_reads hstates rfl⟩
    · exact nomatch h

/-- The nodes of a text that is accepted, if it has any, and what they describe. -/
theorem loadsDocument_of_parse {s : Text} {d : Document} (h : parse .yaml s = .ok d) :
    (Graph.ofTokens? (Token.scan (CharStream.ofText s)) = .ok none ∧ d = {}) ∨
    ∃ g, Graph.ofTokens? (Token.scan (CharStream.ofText s)) = .ok (some g) ∧
      g.LoadsDocument d := by
  rw [parse] at h
  split at h
  · exact nomatch h
  · have hyaml := eq_ok_of_mapError_eq_ok h
    rw [ofYaml] at hyaml
    split at hyaml
    · exact nomatch hyaml
    · rename_i htokens
      cases hyaml
      exact .inl ⟨htokens, rfl⟩
    · rename_i g htokens
      exact .inr ⟨g, htokens, loadsDocument_of_ofGraph hyaml⟩

end Document

/-! ## Tags -/

namespace Yaml

/-- Is the tag one of the schema's? Those are written with two marks, or with their full names. -/
def isSchemaTag (tag : Text) : Bool :=
  (Text.ofString "!!").isPrefixOf (shortTag tag)

/-- Other tags have no short form. -/
theorem shortTag_of_foreign {tag : Text} (h : isSchemaTag tag = false) : shortTag tag = tag := by
  rw [isSchemaTag, shortTag] at h
  rw [shortTag]
  cases hcut : Text.cutPrefix? schemaLead tag with
  | none => rfl
  | some name =>
    rw [hcut] at h
    exact absurd h (by simp [List.isPrefixOf_iff_prefix])

theorem beq_schema_of_foreign {tag other : Text} (h : isSchemaTag tag = false)
    (hother : isSchemaTag other = true) : (tag == other) = false := by
  rw [beq_eq_false_iff_ne]
  rintro rfl
  exact nomatch h.symm.trans hother

namespace NodeProperties

variable {p : NodeProperties} {tag : Text}

/-- A scalar with a tag that says something. -/
theorem scalar_of_tag (hp : p.tag? = some tag) (htag : tag ≠ Text.ofString "!") (line : Nat)
    (text : Text) (plain : Bool) :
    p.scalar line text plain = .scalar (p.line?.getD line + 1) (shortTag tag) true text := by
  have hexplicit : p.explicitTag? = some (shortTag tag) := by
    rw [explicitTag?, hp]
    simp only
    rw [if_neg (by simpa using htag)]
  rw [scalar, hexplicit]

/-- The same properties without the tag. -/
def untagged (p : NodeProperties) : NodeProperties :=
  { p with tag? := none }

/-- A mark that stands alone leaves no trace. -/
theorem scalar_of_mark (hp : p.tag? = some (Text.ofString "!")) (line : Nat) (text : Text)
    (plain : Bool) : p.scalar line text plain = p.untagged.scalar line text plain := by
  have hexplicit : p.explicitTag? = none := by
    rw [explicitTag?, hp]
    rfl
  rw [scalar, hexplicit]
  rfl

theorem scalar_of_none (hp : p.tag? = none) (line : Nat) (text : Text) :
    p.scalar line text false = .scalar (p.line?.getD line + 1) schema.str false text := by
  have hexplicit : p.explicitTag? = none := by rw [explicitTag?, hp]
  rw [scalar, hexplicit]
  rfl

/-- Neither a mark that stands alone nor a tag of the schema is put back. -/
theorem tagged?_scalar_of_stripped (hp : p.tag? = some tag)
    (htag : tag = Text.ofString "!" ∨ isSchemaTag tag = true) (line : Nat) (text : Text)
    (plain : Bool) : (p.scalar line text plain).tagged? = none := by
  by_cases hmark : tag = Text.ofString "!"
  · subst hmark
    rw [scalar_of_mark hp]
    rfl
  · have hschema := htag.resolve_left hmark
    rw [isSchemaTag] at hschema
    rw [scalar_of_tag hp hmark, Node.tagged?, if_pos hschema]

end NodeProperties

theorem resolve_of_foreign {tag : Text} (h : isSchemaTag tag = false) (text : Text) :
    resolve tag text = .ok (.value tag) := by
  rw [resolve, beq_schema_of_foreign h rfl, beq_schema_of_foreign h rfl,
    beq_schema_of_foreign h rfl, beq_schema_of_foreign h rfl, beq_schema_of_foreign h rfl]
  rfl

/-- What stands after a foreign tag is a text like any other. -/
theorem Node.string?_of_foreign {tag : Text} (h : isSchemaTag tag = false) (line : Nat)
    (text : Text) : (Node.scalar line tag true text).string? = some text := by
  rw [Node.string?, beq_schema_of_foreign h rfl, resolve_of_foreign h]
  rfl

theorem isPrefixOf_of_foreign {tag : Text} (h : isSchemaTag tag = false) :
    (Text.ofString "!!").isPrefixOf tag = false := by
  rwa [isSchemaTag, shortTag_of_foreign h] at h

theorem Node.tagged?_of_foreign {tag : Text} (h : isSchemaTag tag = false) (line : Nat)
    (text : Text) : (Node.scalar line tag true text).tagged? = some (tag ++ text) := by
  rw [Node.tagged?, if_neg (by simp [isPrefixOf_of_foreign h])]

/-! ## What becomes of a tag -/

/-- How a scalar with this tag in front is written, if the tag is written as it is: with a gap
before its text, if it has one. -/
inductive WrittenAs (tag text : Text) : Text → Prop
  | alone (h : text = []) : WrittenAs tag text tag
  | spaced {gap : Text} (h : text ≠ []) (hgap : gap ≠ []) :
      WrittenAs tag text (tag ++ (gap ++ text))

/-- **What becomes of a tag that is not the schema's**, in front of `text`, in a transition that is
loaded from the mapping `n`. The predicate is `loaded` with the tag exactly if that is what the
entries of `n` show; if they show none, the tag is lost. -/
structure LoadsMarked (n : Node) (tag text loaded : Text) : Prop where
  kept_iff : loaded = tag ++ text ↔ n.shownPredicate? = some (tag ++ text)
  /-- It is kept if it is the last one that a mapping has under a key written `predicate`. -/
  direct : ∀ (line line' : Nat) (own : Text) (key : Node) (before after : List (Node × Node)),
    n = .mapping line own (before ++ (key, .scalar line' tag true text) :: after) →
    own ≠ schema.null → key.text = Text.ofString "predicate" →
    (∀ entry ∈ after, entry.1.text ≠ Text.ofString "predicate") → loaded = tag ++ text
  lost : n.shownPredicate? = none → loaded = text
  /-- A tag that is kept is what was written, if nothing comes after it, and only then: a gap after
  it is closed. -/
  written_iff : loaded = tag ++ text → ∀ written, WrittenAs tag text written →
    (loaded = written ↔ text = [])
  negated : tag.head? = some Predicate.negationMark → loaded = tag ++ text →
    ∀ p, Predicate.parse loaded = .ok p → p.negated = true ∧ p.name ≠ []

theorem loadsMarked_of_getD {n : Node} {tag text : Text} (hne : tag ≠ [])
    (htag : isSchemaTag tag = false) :
    LoadsMarked n tag text (n.shownPredicate?.getD text) := by
  refine ⟨⟨fun h => ?_, fun h => ?_⟩, ?_, fun h => ?_, fun h written hwritten => ?_,
    fun hmark h p hp => ?_⟩
  · cases hshown : n.shownPredicate? with
    | none =>
      rw [hshown, Option.getD_none, List.self_eq_append_left] at h
      exact absurd h hne
    | some shown => rw [← h, hshown, Option.getD_some]
  · rw [h, Option.getD_some]
  · rintro line line' own key before after rfl hown hkey hafter
    refine congrArg (Option.getD · text) (Node.shownPredicate?_of_last hown ?_ hafter)
    rw [Yaml.shownPredicate?, if_pos (beq_iff_eq.mpr hkey), Node.tagged?_of_foreign htag]
  · rw [h, Option.getD_none]
  · rw [h]
    cases hwritten with
    | alone htext => simp [htext]
    | spaced htext hgap => simp [htext, hgap]
  · rw [h] at hp
    obtain ⟨rest, rfl⟩ := List.head?_eq_some_iff.mp hmark
    exact Predicate.negated_of_parse hp

/-- **What becomes of a tag**, of whatever kind, in front of a scalar that is not quoted. -/
structure LoadsTagged (n : Node) (p : NodeProperties) (line : Nat) (tag text loaded : Text) :
    Prop where
  foreign : tag ≠ Text.ofString "!" → isSchemaTag tag = false → LoadsMarked n tag text loaded
  /-- A mark that stands alone is lost, unless the entries show another predicate. -/
  alone : tag = Text.ofString "!" → n.shownPredicate? = none →
    loaded = (p.untagged.scalar line text true).string?.getD []
  /-- So is a tag of the schema. -/
  schema : isSchemaTag tag = true → n.shownPredicate? = none →
    loaded = (p.scalar line text true).string?.getD []
  /-- Even in the only entry under a key written `predicate` they are not shown. -/
  unshown : tag = Text.ofString "!" ∨ isSchemaTag tag = true →
    ∀ (line' : Nat) (own : Text) (key : Node) (before after : List (Node × Node)),
    n = .mapping line' own (before ++ (key, p.scalar line text true) :: after) →
    (∀ entry ∈ before ++ after, entry.1.text ≠ Text.ofString "predicate") →
    n.shownPredicate? = none

/-- The transition `d` is loaded from the node `t`. That leads to the mapping `n`, and the value of
the mapping for `predicate` leads to the node `v`. -/
structure Graph.LoadsFrom (g : Graph) (t : Node) (d : TransitionDocument) (n v : Node) : Prop where
  loads : g.LoadsTransition t (some d)
  mapping : g.deref? t = some n
  predicate : ∃ v', g.Gives "predicate" [n] (some v') ∧ g.deref? v' = some v

theorem Graph.LoadsFrom.predicate_eq {g : Graph} {t n v : Node} {d : TransitionDocument}
    (h : g.LoadsFrom t d n v) : d.predicate = n.shownPredicate?.getD (v.string?.getD []) := by
  obtain ⟨hloads, hn, v', hv, hv'⟩ := h
  cases hloads with
  | loaded hn' _ hgives hpredicate =>
    cases hn.symm.trans hn'
    cases hgives.unique hv
    rw [hpredicate, Option.bind_some, Graph.string?, hv', Option.bind_some]

theorem Graph.LoadsFrom.loadsTagged {g : Graph} {t n : Node} {d : TransitionDocument}
    {p : NodeProperties} {line : Nat} {tag text : Text}
    (h : g.LoadsFrom t d n (p.scalar line text true)) (hp : p.tag? = some tag) (hne : tag ≠ []) :
    LoadsTagged n p line tag text d.predicate := by
  refine ⟨fun hmark htag => ?_, fun htag hshown => ?_, fun _ hshown => ?_, ?_⟩
  · rw [h.predicate_eq, NodeProperties.scalar_of_tag hp hmark, shortTag_of_foreign htag,
      Node.string?_of_foreign htag, Option.getD_some]
    exact loadsMarked_of_getD hne htag
  · subst htag
    rw [h.predicate_eq, hshown, Option.getD_none, NodeProperties.scalar_of_mark hp]
  · rw [h.predicate_eq, hshown, Option.getD_none]
  · rintro htag line' own key before after rfl hothers
    have hnone : ∀ entry ∈ before ++ (key, p.scalar line text true) :: after,
        Yaml.shownPredicate? entry = none := by
      intro entry hentry
      rw [List.mem_append, List.mem_cons] at hentry
      rcases hentry with hentry | rfl | hentry
      · rw [Yaml.shownPredicate?, if_neg (by simpa using hothers entry (by simp [hentry]))]
      · rw [Yaml.shownPredicate?, NodeProperties.tagged?_scalar_of_stripped hp htag, ite_self]
      · rw [Yaml.shownPredicate?, if_neg (by simpa using hothers entry (by simp [hentry]))]
    rw [Node.shownPredicate?, List.filterMap_eq_nil_iff.mpr hnone, List.getLast?_nil, ite_self]

/-- A text in quotes is loaded as it is, unless the entries show another predicate. -/
theorem Graph.LoadsFrom.predicate_of_quoted {g : Graph} {t n : Node} {d : TransitionDocument}
    {p : NodeProperties} {line : Nat} {text : Text}
    (h : g.LoadsFrom t d n (p.scalar line text false)) (hp : p.tag? = none)
    (hshown : n.shownPredicate? = none) : d.predicate = text := by
  rw [h.predicate_eq, hshown, Option.getD_none, NodeProperties.scalar_of_none hp]
  rfl

end Yaml

/-- **Negations without quotes.** A text that is accepted as a document either holds no nodes at
all, or its states and transitions are those that its nodes describe. In every transition whose
value for `predicate` leads to a scalar that is not quoted and has a tag, whether it is written
there, behind an alias or in a mapping that is merged, `LoadsTagged` says what becomes of the tag.

A tag that is kept with nothing after it is what was `written`, if it was read without escapes and
its handle stands for itself. It makes the same predicate, or the same error, as the same characters
do in quotes, in any document. -/
theorem unquotedNegation_kept_iff {s : Text} {d : Document}
    (hparse : Document.parse .yaml s = .ok d) :
    (Graph.ofTokens? (Token.scan (CharStream.ofText s)) = .ok none ∧ d = {}) ∨
    ∃ g, Graph.ofTokens? (Token.scan (CharStream.ofText s)) = .ok (some g) ∧
      g.LoadsDocument d ∧
      ∀ (t n : Node) (td : TransitionDocument) (p : NodeProperties) (line : Nat) (tag text : Text),
        g.LoadsFrom t td n (p.scalar line text true) → p.tag? = some tag → tag ≠ [] →
        LoadsTagged n p line tag text td.predicate ∧
        ∀ (c c' : Cursor) (handle suffix : Text) (written : List Char),
          scanTag c = .ok (.tag handle suffix, c') → c.rest = written ++ c'.rest →
          '%' ∉ written → handle ≠ [] → tag = handle ++ suffix → text = [] →
          td.predicate = tag ++ text →
          td.predicate = Text.ofChars written ∧
          ∀ (g' : Graph) (t' n' : Node) (td' : TransitionDocument) (p' : NodeProperties)
            (line' : Nat), g'.LoadsFrom t' td' n' (p'.scalar line' (Text.ofChars written) false) →
            p'.tag? = none → n'.shownPredicate? = none →
            Predicate.parse td.predicate = Predicate.parse td'.predicate := by
  refine (Document.loadsDocument_of_parse hparse).imp_right ?_
  rintro ⟨g, htokens, hloads⟩
  refine ⟨g, htokens, hloads, ?_⟩
  intro t n td p line tag text hfrom hp hne
  refine ⟨hfrom.loadsTagged hp hne, ?_⟩
  rintro c c' handle suffix written hscan hread hplain hhandle rfl rfl hkept
  rw [List.append_nil, ← ofChars_of_scanTag hscan hread hplain hhandle] at hkept
  refine ⟨hkept, fun g' t' n' td' p' line' hquoted hp' hshown => ?_⟩
  rw [hquoted.predicate_of_quoted hp' hshown, hkept]

/-- A word in a line. -/
def wordNode (line : Nat) (w : Text) : Node :=
  .scalar line schema.str false w

/-- A transition to the state `A` in a line. -/
def transitionNode (line : Nat) (predicate : Node) : Node :=
  .mapping line schema.map
    [(wordNode line "predicate", predicate), (wordNode line "state", wordNode line "A")]

/-- A transition to the state `A` that gets its predicate from an anchor. -/
def mergingNode (line : Nat) (operand : Node) : Node :=
  .mapping line schema.map
    [(.scalar line schema.merge false "<<", operand), (wordNode line "state", wordNode line "A")]

theorem loadsFrom_transitionNode {g : Graph} {line : Nat} {v v' : Node} {loaded : Text}
    (hv : g.deref? v = some v')
    (h : loaded = (transitionNode line v).shownPredicate?.getD (v'.string?.getD [])) :
    g.LoadsFrom (transitionNode line v) ⟨loaded, "A"⟩ (transitionNode line v) v' := by
  have hpredicate : g.Gives "predicate" [transitionNode line v] (some v) := .own rfl rfl
  have hstate : g.TextUnder "state" (transitionNode line v) "A" := ⟨_, .own rfl rfl, rfl⟩
  refine ⟨.loaded rfl rfl hpredicate ?_ hstate, rfl, v, hpredicate, hv⟩
  rw [h, Option.bind_some, Graph.string?, hv, Option.bind_some]

theorem loadsFrom_mergingNode {g : Graph} {line line' : Nat} {operand v : Node} {loaded : Text}
    (hoperand : g.deref? operand = some (transitionNode line' v)) (hv : g.deref? v = some v)
    (hone : Graph.operands (mergingNode line operand).entries = [operand])
    (h : loaded = v.string?.getD []) :
    g.LoadsFrom (mergingNode line operand) ⟨loaded, "A"⟩ (mergingNode line operand) v := by
  have hpredicate : g.Gives "predicate" [mergingNode line operand] (some v) :=
    .merged rfl rfl (hone ▸ .own hoperand rfl)
  have hstate : g.TextUnder "state" (mergingNode line operand) "A" := ⟨_, .own rfl rfl, rfl⟩
  refine ⟨.loaded rfl rfl hpredicate ?_ hstate, rfl, v, hpredicate, hv⟩
  rw [h, Option.bind_some, Graph.string?, hv, Option.bind_some]
  rfl

/-- A state with a negation in its first transition, an alias of it in the second one and a merged
one in the third, and other ways to write it in the rest. -/
def variedNegations : Text :=
  "start: A\nstates:\n- name: A\n  run: act\n  transitions:\n" ++
  "  - &m \x7bpredicate: &p !done , state: A\x7d\n" ++
  "  - \x7bpredicate: *p, state: A\x7d\n" ++
  "  - \x7b<<: *m, state: A\x7d\n" ++
  "  - \x7bpredicate: '!done', state: A\x7d\n" ++
  "  - \x7bpredicate: !done x, state: A\x7d\n" ++
  "  - \x7bpredicate: ! done, state: A\x7d\n" ++
  "  - \x7bpredicate: !!done , state: A\x7d\n"

/-- What is loaded from that text. -/
def variedDocument : Document :=
  ⟨"A", [⟨"A", "act", [⟨"!done", "A"⟩, ⟨[], "A"⟩, ⟨[], "A"⟩, ⟨"!done", "A"⟩, ⟨"!donex", "A"⟩,
    ⟨"done", "A"⟩, ⟨[], "A"⟩]⟩]⟩

/-- The nodes of that text. -/
def variedGraph : Graph where
  root := .mapping 1 schema.map
    [(wordNode 1 "start", wordNode 1 "A"),
      (wordNode 2 "states", .sequence 3 schema.seq
        [.mapping 3 schema.map [(wordNode 3 "name", wordNode 3 "A"),
          (wordNode 4 "run", wordNode 4 "act"),
          (wordNode 5 "transitions", .sequence 6 schema.seq
            [transitionNode 6 (.scalar 6 "!done" true []), transitionNode 7 (.reference 7 "p" 2 1),
              mergingNode 8 (.reference 8 "m" 3 0), transitionNode 9 (wordNode 9 "!done"),
              transitionNode 10 (.scalar 10 "!done" true "x"),
              transitionNode 11 (wordNode 11 "done"),
              transitionNode 12 (.scalar 12 "!!done" true [])])]])]
  anchored := [(0, transitionNode 6 (.scalar 6 "!done" true [])), (1, .scalar 6 "!done" true [])]
  size := 112

/-- A negation is kept where it is written, and lost behind an alias and by merging. With a text
after it, the gap is closed. A mark that stands alone and a tag of the schema are lost where they
are written. The one that is kept makes the predicate that it makes in quotes. -/
theorem variedNegations_loaded :
    Document.parse .yaml variedNegations = .ok variedDocument ∧
    Graph.ofTokens? (Token.scan (CharStream.ofText variedNegations)) = .ok (some variedGraph) ∧
    variedGraph.LoadsDocument variedDocument ∧
    LoadsTagged (transitionNode 6 (.scalar 6 "!done" true [])) { tag? := some "!done" } 5
      "!done" [] "!done" ∧
    LoadsTagged (transitionNode 7 (.reference 7 "p" 2 1)) { tag? := some "!done" } 5 "!done" [] [] ∧
    LoadsTagged (mergingNode 8 (.reference 8 "m" 3 0)) { tag? := some "!done" } 5 "!done" [] [] ∧
    LoadsTagged (transitionNode 10 (.scalar 10 "!done" true "x")) { tag? := some "!done" } 9
      "!done" "x" "!donex" ∧
    LoadsTagged (transitionNode 11 (wordNode 11 "done")) { tag? := some "!" } 10
      "!" "done" "done" ∧
    LoadsTagged (transitionNode 12 (.scalar 12 "!!done" true []))
      { tag? := some "tag:yaml.org,2002:done" } 11 "tag:yaml.org,2002:done" [] [] ∧
    ∀ td, variedGraph.LoadsFrom (transitionNode 9 (wordNode 9 "!done")) td
      (transitionNode 9 (wordNode 9 "!done")) (wordNode 9 "!done") →
      Predicate.parse "!done" = Predicate.parse td.predicate := by
  have hparse : Document.parse .yaml variedNegations = .ok variedDocument :=
    eq_ok_of_toOption_eq_some (by decide +kernel)
  have hgraph : Graph.ofTokens? (Token.scan (CharStream.ofText variedNegations))
      = .ok (some variedGraph) :=
    eq_ok_of_toOption_eq_some (by decide +kernel)
  refine ⟨hparse, hgraph, ?_⟩
  rcases unquotedNegation_kept_iff hparse with ⟨hnone, -⟩ | ⟨g, htokens, hloads, htagged⟩
  · exact absurd (hgraph.symm.trans hnone) (by simp)
  · cases htokens.symm.trans hgraph
    have hlone : ({ tag? := some "!" } : NodeProperties).scalar 10 "done" true
        = wordNode 11 "done" := by decide +kernel
    have hwritten : Text.ofChars ['!', 'd', 'o', 'n', 'e'] = Text.ofString "!done" := by decide
    obtain ⟨hkept, hquoted⟩ := htagged (transitionNode 6 (.scalar 6 "!done" true [])) _
      ⟨"!done", "A"⟩ { tag? := some "!done" } 5 "!done" [] (loadsFrom_transitionNode rfl rfl) rfl
      (by decide)
    refine ⟨hloads, hkept, ?_, ?_, ?_, ?_, ?_, ?_⟩
    · exact (htagged _ _ ⟨[], "A"⟩ { tag? := some "!done" } 5 "!done" []
        (loadsFrom_transitionNode rfl rfl) rfl (by decide)).1
    · exact (htagged _ _ ⟨[], "A"⟩ { tag? := some "!done" } 5 "!done" []
        (loadsFrom_mergingNode rfl rfl rfl rfl) rfl (by decide)).1
    · exact (htagged _ _ ⟨"!donex", "A"⟩ { tag? := some "!done" } 9 "!done" "x"
        (loadsFrom_transitionNode rfl rfl) rfl (by decide)).1
    · have hfrom : variedGraph.LoadsFrom (transitionNode 11 (wordNode 11 "done")) ⟨"done", "A"⟩
          (transitionNode 11 (wordNode 11 "done")) (wordNode 11 "done") :=
        loadsFrom_transitionNode rfl rfl
      exact (htagged _ _ _ { tag? := some "!" } 10 "!" "done" (hlone ▸ hfrom) rfl (by decide)).1
    · exact (htagged _ _ ⟨[], "A"⟩ { tag? := some "tag:yaml.org,2002:done" } 11
        "tag:yaml.org,2002:done" [] (loadsFrom_transitionNode rfl rfl) rfl (by decide)).1
    · intro td htd
      have hscan := scanTag_identifier (w := "done") (c := ⟨"!done\n".toList, 0, 0, 0⟩) (r := [])
        (by decide) (by decide)
      refine (hquoted _ _ _ _ ['!', 'd', 'o', 'n', 'e'] hscan (by decide) (by decide) (by decide)
        (by decide) rfl rfl).2 variedGraph _ _ td {} 8 (hwritten ▸ htd) rfl rfl

/-- Two transitions of one state: the first one has a predicate with an anchor, and the second one
has an alias of it. -/
def sharedPredicate (written : Text) : Text :=
  "start: A\nstates:\n- name: A\n  run: act\n  transitions:\n" ++
  "  - \x7bpredicate: &p " ++ written ++ ", state: A\x7d\n" ++
  "  - \x7bpredicate: *p, state: A\x7d\n"

/-- **A negation can be lost.** Behind an alias, one without quotes is loaded as a condition that
always holds, and one with quotes is loaded as it is written. -/
theorem aliased_negation_lost :
    Document.parse .yaml (sharedPredicate "!done ")
      = .ok ⟨"A", [⟨"A", "act", [⟨"!done", "A"⟩, ⟨[], "A"⟩]⟩]⟩ ∧
    Document.parse .yaml (sharedPredicate "'!done'")
      = .ok ⟨"A", [⟨"A", "act", [⟨"!done", "A"⟩, ⟨"!done", "A"⟩]⟩]⟩ ∧
    Predicate.parse [] = .ok .always ∧ Predicate.parse "!done" = .ok ⟨"done", true⟩ :=
  ⟨eq_ok_of_toOption_eq_some (by decide +kernel), eq_ok_of_toOption_eq_some (by decide +kernel),
    rfl, eq_ok_of_toOption_eq_some (by decide +kernel)⟩

end StateForge
