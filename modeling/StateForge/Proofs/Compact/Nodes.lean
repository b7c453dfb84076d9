import Mathlib.Data.List.Forall2
import StateForge.Proofs.Compact.Rendering
import StateForge.Yaml.Node

/-!
# The nodes of the compact form

`Compose.Composes ts n` says that the node `n` is built from the tokens `ts`, whatever follows them.
Scalars in quotes, flow sequences and flow mappings keep it (`Compose.composes_quoted`,
`Compose.composes_sequence`, `Compose.composes_mapping`), and a list of tokens that is one value is
a document without anchors (`Graph.ofTokens?_of_composes`).

A list has its first item without a comma and the others with one. The builder treats an item after
a comma like a first one (`Compose.flowItems_comma`, `Compose.flowEntries_comma`), so an item has to
be looked at only once.
-/

set_option autoImplicit false

namespace StateForge
namespace Yaml

namespace Compose

/-! ## Steps -/

variable {α β : Type} {c c' : Composer}

theorem bind_of_ok {x : Compose α} {a : α} (h : x c = .ok (a, c')) (f : α → Compose β) :
    (x >>= f) c = f a c' := by
  show (x c >>= fun p => f p.1 p.2) = _
  rw [h]
  rfl

theorem peek_of_tokens {t : Token} {ts : List Token} (h : c.tokens = t :: ts) :
    peek c = .ok (t, c) := by
  have hget : (get : Compose Composer) c = .ok (c, c) := rfl
  rw [peek, bind_of_ok hget, h]
  rfl

theorem skip_of_tokens {t : Token} {ts : List Token} (h : c.tokens = t :: ts) :
    skip c = .ok ((), { c with tokens := ts }) := by
  show Except.ok ((), { c with tokens := c.tokens.tail }) = _
  rw [h, List.tail_cons]

/-- The lexemes that a value starts with, if nothing is written in front of it. -/
inductive OpensValue : Lexeme → Prop
  | scalar (text : Text) (plain : Bool) : OpensValue (.scalar text plain)
  | sequence : OpensValue .flowSequenceStart
  | mapping : OpensValue .flowMappingStart
  | blockSequence : OpensValue .blockSequenceStart
  | blockMapping : OpensValue .blockMappingStart

/-- A value without properties is its content. -/
theorem node_of_opens {t : Token} {ts : List Token} (htokens : c.tokens = t :: ts)
    (ht : OpensValue t.lexeme) (fuel : Nat) (place : Place) :
    node (fuel + 1) place c = content fuel place {} t c := by
  have hpeek := peek_of_tokens htokens
  obtain ⟨line, lexeme⟩ := t
  have hanchor : anchorProperty {} c = .ok ({}, c) := by
    rw [anchorProperty, bind_of_ok hpeek]
    cases ht <;> rfl
  have htag : tagProperty {} c = .ok ({}, c) := by
    rw [tagProperty, bind_of_ok hpeek]
    cases ht <;> rfl
  have hproperties : properties c = .ok ({}, c) := by
    rw [properties, bind_of_ok hanchor, bind_of_ok htag]
    exact hanchor
  have hbody : (properties >>= fun p => peek >>= fun t => declareAnchor p.anchor? >>= fun n? =>
      content fuel place p t >>= fun body => completeAnchor n? body) c
      = content fuel place {} ⟨line, lexeme⟩ c := by
    have hdeclare : declareAnchor none c = .ok (none, c) := rfl
    rw [bind_of_ok hproperties, bind_of_ok hpeek, bind_of_ok hdeclare]
    exact congrFun (bind_pure (content fuel place {} ⟨line, lexeme⟩)) c
  rw [node, bind_of_ok hpeek]
  cases ht <;> exact hbody

/-! ## Values -/

/-- The node is built from the tokens, whatever follows them. -/
structure Composes (ts : List Token) (n : Node) : Prop where
  opens : ∃ t rest, ts = t :: rest ∧ OpensValue t.lexeme
  node_eq : ∀ (fuel : Nat) (place : Place) (c : Composer) (rest : List Token),
    2 * ts.length ≤ fuel → c.tokens = ts ++ rest →
      node fuel place c = .ok (n, { c with tokens := rest })

theorem composes_scalar (line : Nat) (s : Text) (plain : Bool) :
    Composes [⟨line, .scalar s plain⟩] (({} : NodeProperties).scalar line s plain) := by
  refine ⟨⟨_, _, rfl, .scalar s plain⟩, fun fuel place c rest hfuel htokens => ?_⟩
  obtain ⟨fuel, rfl⟩ := Nat.exists_eq_add_of_le hfuel
  rw [List.singleton_append] at htokens
  rw [Nat.add_comm, List.length_singleton, node_of_opens htokens (.scalar s plain)]
  exact bind_of_ok (skip_of_tokens htokens)
    fun _ => pure (({} : NodeProperties).scalar line s plain)

theorem composes_quoted (line : Nat) (s : Text) :
    Composes [⟨line, .scalar s false⟩] (.scalar (line + 1) schema.str false s) :=
  composes_scalar line s false

/-! ## Sequences -/

theorem flowSeparator_comma {line : Nat} {t : Token} {ts : List Token}
    (htokens : c.tokens = ⟨line, .flowEntry⟩ :: t :: ts) :
    flowSeparator ⟨line, .flowEntry⟩ false c = .ok (t, { c with tokens := t :: ts }) := by
  show (skip >>= fun _ => peek) c = _
  rw [bind_of_ok (skip_of_tokens htokens)]
  exact peek_of_tokens rfl

theorem flowItems_end {line : Nat} {rest : List Token}
    (htokens : c.tokens = ⟨line, .flowSequenceEnd⟩ :: rest) (fuel : Nat) (first : Bool) :
    flowItems (fuel + 1) first c = .ok ([], { c with tokens := rest }) := by
  rw [flowItems, bind_of_ok (peek_of_tokens htokens)]
  exact bind_of_ok (skip_of_tokens htokens) fun _ => pure []

/-- After a comma, items are read as at the beginning. -/
theorem flowItems_comma {line : Nat} {t : Token} {ts : List Token}
    (htokens : c.tokens = ⟨line, .flowEntry⟩ :: t :: ts) (ht : OpensValue t.lexeme) (fuel : Nat) :
    flowItems (fuel + 1) false c = flowItems (fuel + 1) true { c with tokens := t :: ts } := by
  rw [flowItems, flowItems, bind_of_ok (peek_of_tokens htokens),
    bind_of_ok (peek_of_tokens (c := { c with tokens := t :: ts }) rfl)]
  obtain ⟨line', lexeme⟩ := t
  cases ht <;> exact bind_of_ok (flowSeparator_comma htokens) _

/-- The first item of a sequence. -/
theorem flowItems_first {ts : List Token} {n : Node} (h : Composes ts n) {rest : List Token}
    {fuel : Nat} (hfuel : 2 * ts.length ≤ fuel) (htokens : c.tokens = ts ++ rest) :
    flowItems (fuel + 1) true c =
      (flowItems fuel false >>= fun ns => pure (n :: ns)) { c with tokens := rest } := by
  have hnode := h.node_eq fuel .flow c rest hfuel htokens
  obtain ⟨t, ts', rfl, ht⟩ := h.opens
  rw [flowItems, bind_of_ok (peek_of_tokens htokens)]
  obtain ⟨line, lexeme⟩ := t
  cases ht <;>
    exact bind_of_ok hnode fun item => flowItems fuel false >>= fun ns => pure (item :: ns)

/-- The items after the first, and the end of the sequence. -/
theorem flowItems_more {line : Nat} {tss : List (List Token)} {ns : List Node}
    (h : List.Forall₂ Composes tss ns) {rest : List Token} {fuel : Nat}
    (hfuel : 2 * (tss.flatMap (⟨line, .flowEntry⟩ :: ·)).length < fuel)
    (htokens : c.tokens =
      tss.flatMap (⟨line, .flowEntry⟩ :: ·) ++ ⟨line, .flowSequenceEnd⟩ :: rest) :
    flowItems fuel false c = .ok (ns, { c with tokens := rest }) := by
  induction h generalizing c fuel with
  | nil =>
    obtain ⟨fuel, rfl⟩ := Nat.exists_eq_add_one.mpr (Nat.zero_lt_of_lt hfuel)
    exact flowItems_end htokens fuel false
  | @cons ts n tss ns hts _ ih =>
    obtain ⟨fuel, rfl⟩ := Nat.exists_eq_add_one.mpr (Nat.zero_lt_of_lt hfuel)
    obtain ⟨t, ts', hopens, ht⟩ := hts.opens
    rw [List.flatMap_cons, List.cons_append, List.length_cons, List.length_append] at hfuel
    rw [List.flatMap_cons, List.cons_append, List.cons_append, List.append_assoc] at htokens
    have htokens' := htokens
    rw [hopens, List.cons_append] at htokens'
    rw [flowItems_comma htokens' ht, flowItems_first hts (by omega) (by rw [hopens]; rfl)]
    exact bind_of_ok (ih (by omega) rfl) fun ns => pure (n :: ns)

/-- All items, and the end of the sequence. -/
theorem flowItems_of_composes {line : Nat} {tss : List (List Token)} {ns : List Node}
    (h : List.Forall₂ Composes tss ns) {rest : List Token} {fuel : Nat}
    (hfuel : 2 * (List.intercalate [⟨line, .flowEntry⟩] tss).length < fuel)
    (htokens : c.tokens =
      List.intercalate [⟨line, .flowEntry⟩] tss ++ ⟨line, .flowSequenceEnd⟩ :: rest) :
    flowItems fuel true c = .ok (ns, { c with tokens := rest }) := by
  obtain ⟨fuel, rfl⟩ := Nat.exists_eq_add_one.mpr (Nat.zero_lt_of_lt hfuel)
  cases h with
  | nil => exact flowItems_end htokens fuel true
  | @cons ts n tss ns hts htss =>
    rw [Compact.intercalate_cons, List.append_assoc] at htokens
    rw [Compact.intercalate_cons, List.length_append] at hfuel
    obtain ⟨t, ts', hopens, -⟩ := hts.opens
    have hpos : 0 < ts.length := by rw [hopens]; exact Nat.succ_pos _
    rw [flowItems_first hts (by omega) htokens]
    exact bind_of_ok (flowItems_more htss (by omega) rfl) fun ns => pure (n :: ns)

/-- **A sequence is built**, if its items are. -/
theorem composes_sequence (line : Nat) {tss : List (List Token)} {ns : List Node}
    (h : List.Forall₂ Composes tss ns) :
    Composes (⟨line, .flowSequenceStart⟩ ::
        List.intercalate [⟨line, .flowEntry⟩] tss ++ [⟨line, .flowSequenceEnd⟩])
      (.sequence (line + 1) schema.seq ns) := by
  refine ⟨⟨_, _, rfl, .sequence⟩, fun fuel place c rest hfuel htokens => ?_⟩
  rw [List.cons_append, List.length_cons, List.length_append, List.length_singleton] at hfuel
  rw [List.cons_append, List.cons_append, List.append_assoc, List.singleton_append] at htokens
  obtain ⟨fuel, rfl⟩ := Nat.exists_eq_add_of_le' (show 2 ≤ fuel by omega)
  rw [node_of_opens htokens .sequence]
  refine (bind_of_ok (skip_of_tokens htokens) fun _ =>
    flowItems fuel true >>= fun ns => pure (({} : NodeProperties).sequence line ns)).trans ?_
  exact bind_of_ok (flowItems_of_composes h (by omega) rfl)
    fun ns => pure (({} : NodeProperties).sequence line ns)

/-! ## Mappings -/

/-- The tokens of a member, given its name and the tokens of its value. -/
def memberTokens (line : Nat) (p : Text × List Token) : List Token :=
  ⟨line, .key⟩ :: ⟨line, .scalar p.1 false⟩ :: ⟨line, .value⟩ :: p.2

/-- The entry is built from a name and the tokens of a value. -/
structure ComposesMember (line : Nat) (p : Text × List Token) (e : Node × Node) : Prop where
  key_eq : e.1 = .scalar (line + 1) schema.str false p.1
  composes : Composes p.2 e.2

/-- The value after a colon. -/
theorem flowValue_of_composes {line : Nat} {ts : List Token} {n : Node} (h : Composes ts n)
    {rest : List Token} {fuel : Nat} (hfuel : 2 * ts.length ≤ fuel)
    (htokens : c.tokens = ⟨line, .value⟩ :: (ts ++ rest)) :
    flowValue (fuel + 1) c = .ok (n, { c with tokens := rest }) := by
  have hnode := h.node_eq fuel .flow { c with tokens := ts ++ rest } rest hfuel rfl
  obtain ⟨t, ts', rfl, ht⟩ := h.opens
  rw [flowValue, bind_of_ok (peek_of_tokens htokens)]
  obtain ⟨line', lexeme⟩ := t
  refine (bind_of_ok (skip_of_tokens htokens) fun _ => _).trans ?_
  rw [bind_of_ok (peek_of_tokens rfl)]
  cases ht <;> exact hnode

theorem flowEntries_end {line : Nat} {rest : List Token}
    (htokens : c.tokens = ⟨line, .flowMappingEnd⟩ :: rest) (fuel : Nat) (first : Bool) :
    flowEntries (fuel + 1) first c = .ok ([], { c with tokens := rest }) := by
  rw [flowEntries, bind_of_ok (peek_of_tokens htokens)]
  exact bind_of_ok (skip_of_tokens htokens) fun _ => pure []

/-- After a comma, entries are read as at the beginning. -/
theorem flowEntries_comma {line line' : Nat} {ts : List Token}
    (htokens : c.tokens = ⟨line, .flowEntry⟩ :: ⟨line', .key⟩ :: ts) (fuel : Nat) :
    flowEntries (fuel + 1) false c =
      flowEntries (fuel + 1) true { c with tokens := ⟨line', .key⟩ :: ts } := by
  rw [flowEntries, flowEntries, bind_of_ok (peek_of_tokens htokens),
    bind_of_ok (peek_of_tokens (c := { c with tokens := ⟨line', .key⟩ :: ts }) rfl)]
  exact bind_of_ok (flowSeparator_comma htokens) _

/-- The first entry of a mapping. -/
theorem flowEntries_first {line : Nat} {p : Text × List Token} {e : Node × Node}
    (h : ComposesMember line p e) {rest : List Token} {fuel : Nat}
    (hfuel : 2 * (memberTokens line p).length ≤ fuel)
    (htokens : c.tokens = memberTokens line p ++ rest) :
    flowEntries (fuel + 1) true c =
      (flowEntries fuel false >>= fun es => pure (e :: es)) { c with tokens := rest } := by
  obtain ⟨name, ts⟩ := p
  obtain ⟨key, value⟩ := e
  obtain rfl : key = .scalar (line + 1) schema.str false name := h.key_eq
  have hvalue : Composes ts value := h.composes
  simp only [memberTokens, List.length_cons] at hfuel
  simp only [memberTokens, List.cons_append] at htokens
  obtain ⟨fuel, rfl⟩ := Nat.exists_eq_add_of_le' (show 1 ≤ fuel by omega)
  have hkey := (composes_quoted line name).node_eq (fuel + 1) .flow
    { c with tokens := ⟨line, .scalar name false⟩ :: ⟨line, .value⟩ :: (ts ++ rest) } _
    (by simp only [List.length_singleton]; omega) rfl
  have hfirst : flowSeparator ⟨line, .key⟩ true c = .ok (⟨line, .key⟩, c) := rfl
  rw [flowEntries, bind_of_ok (peek_of_tokens htokens)]
  refine (bind_of_ok hfirst _).trans ((bind_of_ok (skip_of_tokens htokens) _).trans ?_)
  rw [bind_of_ok (peek_of_tokens rfl)]
  refine (bind_of_ok hkey fun key => flowValue (fuel + 1) >>= fun val =>
    flowEntries (fuel + 1) false >>= fun es => pure ((key, val) :: es)).trans ?_
  exact bind_of_ok (flowValue_of_composes hvalue (by omega) rfl) fun val =>
    flowEntries (fuel + 1) false >>= fun es => pure ((_, val) :: es)

/-- The entries after the first, and the end of the mapping. -/
theorem flowEntries_more {line : Nat} {ps : List (Text × List Token)} {es : List (Node × Node)}
    (h : List.Forall₂ (ComposesMember line) ps es) {rest : List Token} {fuel : Nat}
    (hfuel : 2 * ((ps.map (memberTokens line)).flatMap (⟨line, .flowEntry⟩ :: ·)).length < fuel)
    (htokens : c.tokens = (ps.map (memberTokens line)).flatMap (⟨line, .flowEntry⟩ :: ·) ++
      ⟨line, .flowMappingEnd⟩ :: rest) :
    flowEntries fuel false c = .ok (es, { c with tokens := rest }) := by
  induction h generalizing c fuel with
  | nil =>
    obtain ⟨fuel, rfl⟩ := Nat.exists_eq_add_one.mpr (Nat.zero_lt_of_lt hfuel)
    exact flowEntries_end htokens fuel false
  | @cons p e ps es hp _ ih =>
    obtain ⟨fuel, rfl⟩ := Nat.exists_eq_add_one.mpr (Nat.zero_lt_of_lt hfuel)
    rw [List.map_cons, List.flatMap_cons, List.cons_append, List.length_cons,
      List.length_append] at hfuel
    rw [List.map_cons, List.flatMap_cons, List.cons_append, List.cons_append,
      List.append_assoc] at htokens
    rw [flowEntries_comma htokens, flowEntries_first hp (by omega) rfl]
    exact bind_of_ok (ih (by omega) rfl) fun es => pure (e :: es)

/-- All entries, and the end of the mapping. -/
theorem flowEntries_of_composes {line : Nat} {ps : List (Text × List Token)}
    {es : List (Node × Node)} (h : List.Forall₂ (ComposesMember line) ps es) {rest : List Token}
    {fuel : Nat}
    (hfuel : 2 * (List.intercalate [⟨line, .flowEntry⟩] (ps.map (memberTokens line))).length < fuel)
    (htokens : c.tokens = List.intercalate [⟨line, .flowEntry⟩] (ps.map (memberTokens line)) ++
      ⟨line, .flowMappingEnd⟩ :: rest) :
    flowEntries fuel true c = .ok (es, { c with tokens := rest }) := by
  obtain ⟨fuel, rfl⟩ := Nat.exists_eq_add_one.mpr (Nat.zero_lt_of_lt hfuel)
  cases h with
  | nil => exact flowEntries_end htokens fuel true
  | @cons p e ps es hp hps =>
    rw [List.map_cons, Compact.intercalate_cons, List.append_assoc] at htokens
    rw [List.map_cons, Compact.intercalate_cons, List.length_append] at hfuel
    have hpos : 0 < (memberTokens line p).length := Nat.succ_pos _
    rw [flowEntries_first hp (by omega) htokens]
    exact bind_of_ok (flowEntries_more hps (by omega) rfl) fun es => pure (e :: es)

/-- **A mapping is built**, if its entries are. -/
theorem composes_mapping (line : Nat) {ps : List (Text × List Token)} {es : List (Node × Node)}
    (h : List.Forall₂ (ComposesMember line) ps es) :
    Composes (⟨line, .flowMappingStart⟩ ::
        List.intercalate [⟨line, .flowEntry⟩] (ps.map (memberTokens line)) ++
        [⟨line, .flowMappingEnd⟩])
      (.mapping (line + 1) schema.map es) := by
  refine ⟨⟨_, _, rfl, .mapping⟩, fun fuel place c rest hfuel htokens => ?_⟩
  rw [List.cons_append, List.length_cons, List.length_append, List.length_singleton] at hfuel
  rw [List.cons_append, List.cons_append, List.append_assoc, List.singleton_append] at htokens
  obtain ⟨fuel, rfl⟩ := Nat.exists_eq_add_of_le' (show 2 ≤ fuel by omega)
  rw [node_of_opens htokens .mapping]
  refine (bind_of_ok (skip_of_tokens htokens) fun _ =>
    flowEntries fuel true >>= fun es => pure (({} : NodeProperties).mapping line es)).trans ?_
  exact bind_of_ok (flowEntries_of_composes h (by omega) rfl)
    fun es => pure (({} : NodeProperties).mapping line es)

end Compose

/-! ## Documents -/

/-- The document of the node that is built first, if there are no anchors in it and only one token
is left after it. -/
theorem Graph.ofTokens?_of_node {t last : Token} {ts : List Token} {n : Node}
    (ht : Compose.OpensValue t.lexeme)
    (hnode : Compose.node (4 * (t :: ts ++ [last]).length + 8) .block
      { tokens := t :: ts ++ [last] } = .ok (n, { tokens := [last] })) :
    Graph.ofTokens? (t :: ts ++ [last]) = .ok (some ⟨n, [], (t :: ts ++ [last]).length⟩) := by
  have hdocument : Compose.document (4 * (t :: ts ++ [last]).length + 8)
      { tokens := t :: ts ++ [last] } = .ok (some n, { tokens := [last] }) := by
    rw [Compose.document, Compose.bind_of_ok (Compose.peek_of_tokens rfl)]
    obtain ⟨line, lexeme⟩ := t
    have hroot := Compose.bind_of_ok hnode fun root => Compose.peek >>= fun _ => pure (some root)
    rw [Compose.bind_of_ok (Compose.peek_of_tokens rfl)] at hroot
    cases ht <;> exact hroot
  rw [Graph.ofTokens?]
  show (Compose.document _ _ >>= fun p => _) = _
  rw [hdocument]
  rfl

/-- **The document of a list of tokens that is one value.** There are no anchors in it. -/
theorem Graph.ofTokens?_of_composes {ts : List Token} {n : Node} (h : Compose.Composes ts n)
    (last : Token) :
    Graph.ofTokens? (ts ++ [last]) = .ok (some ⟨n, [], (ts ++ [last]).length⟩) := by
  have hnode := h.node_eq (4 * (ts ++ [last]).length + 8) .block { tokens := ts ++ [last] } [last]
    (by simp only [List.length_append]; omega) rfl
  obtain ⟨t, ts', rfl, ht⟩ := h.opens
  exact ofTokens?_of_node ht hnode

end Yaml
end StateForge
