import StateForge.Proofs.Compact.Nodes
import StateForge.Proofs.Yaml.Loading
import StateForge.Proofs.Yaml.Negation

/-!
# The nodes of the block form

In the block form, tokens are on different lines, and it does not matter on which. So a node is not
determined by the kinds of its tokens, but what it says is: `Compose.BuildsBlock lexemes P` says
that a node for which `P` holds is built from any tokens of these kinds, whatever follows them.

A negation without quotes is a tag with nothing after it. That it has no text shows only at the next
token, which has to be another key or the end of the mapping; `Compose.BuildsValue` says the same of
values that stand before such a token.
-/

set_option autoImplicit false

namespace StateForge
namespace Yaml

/-! ## What a node says -/

namespace Node

/-- The node is a tag, with nothing after it. -/
def IsTag (n : Node) (tag : Text) : Prop :=
  ∃ line, n = .scalar line tag true []

/-- The node is a list, and each of these things holds for an item of it. -/
def IsSequence (n : Node) (Ps : List (Node → Prop)) : Prop :=
  ∃ line items, n = .sequence line schema.seq items ∧ List.Forall₂ (fun item P => P item) items Ps

/-- The node is a mapping with these keys, and what is said of the value of a key holds for it. -/
def IsMapping (n : Node) (fields : List (Text × (Node → Prop))) : Prop :=
  ∃ line entries, n = .mapping line schema.map entries ∧
    List.Forall₂ (fun e field => Node.IsText e.1 field.1 ∧ field.2 e.2) entries fields

end Node

namespace Compose

/-! ## Tokens by their kinds -/

theorem exists_of_map_cons {ts : List Token} {lexeme : Lexeme} {lexemes : List Lexeme}
    (h : ts.map Token.lexeme = lexeme :: lexemes) :
    ∃ line rest, ts = ⟨line, lexeme⟩ :: rest ∧ rest.map Token.lexeme = lexemes := by
  obtain ⟨⟨line, lexeme⟩, rest, rfl, rfl, hrest⟩ := List.map_eq_cons_iff.mp h
  exact ⟨line, rest, rfl, hrest⟩

/-- Tokens can be cut as their kinds can. -/
theorem exists_of_map_flatten {ts : List Token} {lss : List (List Lexeme)}
    (h : ts.map Token.lexeme = lss.flatten) :
    ∃ tss, ts = tss.flatten ∧
      List.Forall₂ (fun lexemes ts => List.map Token.lexeme ts = lexemes) lss tss := by
  induction lss generalizing ts with
  | nil => exact ⟨[], List.map_eq_nil_iff.mp h, .nil⟩
  | cons lexemes lss ih =>
    obtain ⟨ts₁, ts₂, rfl, hts₁, hts₂⟩ := List.map_eq_append_iff.mp h
    obtain ⟨tss, rfl, htss⟩ := ih hts₂
    exact ⟨ts₁ :: tss, rfl, .cons hts₁ htss⟩

/-! ## Values -/

variable {c : Composer}

/-- What follows the value of a key: another key, or the end of the mapping. -/
inductive EndsValue : List Token → Prop
  | key (line : Nat) (rest : List Token) : EndsValue (⟨line, .key⟩ :: rest)
  | stop (line : Nat) (rest : List Token) : EndsValue (⟨line, .blockEnd⟩ :: rest)

/-- The lexemes that the value of a key starts with. -/
inductive StartsValue : Lexeme → Prop
  | opens {lexeme : Lexeme} (h : OpensValue lexeme) : StartsValue lexeme
  | tag (handle suffix : Text) : StartsValue (.tag handle suffix)

/-- The node is built from the tokens outside of flow collections, whatever follows them. -/
structure ComposesBlock (ts : List Token) (n : Node) : Prop where
  opens : ∃ t rest, ts = t :: rest ∧ OpensValue t.lexeme
  node_eq : ∀ (fuel : Nat) (place : Place) (c : Composer) (rest : List Token),
    2 * ts.length ≤ fuel → place ≠ .flow → c.handles = standardHandles → c.tokens = ts ++ rest →
      node fuel place c = .ok (n, { c with tokens := rest })

/-- The node is built from the tokens after a key. -/
structure ComposesValue (ts : List Token) (n : Node) : Prop where
  starts : ∃ t rest, ts = t :: rest ∧ StartsValue t.lexeme
  node_eq : ∀ (fuel : Nat) (c : Composer) (rest : List Token),
    2 * ts.length ≤ fuel → c.handles = standardHandles → EndsValue rest → c.tokens = ts ++ rest →
      node fuel .mapping c = .ok (n, { c with tokens := rest })

theorem Composes.block {ts : List Token} {n : Node} (h : Composes ts n) : ComposesBlock ts n :=
  ⟨h.opens, fun fuel place c rest hfuel _ _ htokens => h.node_eq fuel place c rest hfuel htokens⟩

theorem ComposesBlock.value {ts : List Token} {n : Node} (h : ComposesBlock ts n) :
    ComposesValue ts n := by
  obtain ⟨t, rest, hts, ht⟩ := h.opens
  exact ⟨⟨t, rest, hts, .opens ht⟩, fun fuel c rest hfuel hhandles _ htokens =>
    h.node_eq fuel .mapping c rest hfuel (by decide) hhandles htokens⟩

/-- **A negation without quotes is a tag without a text.** -/
theorem composesValue_tag (line : Nat) {w : Text} (hw : w ≠ [])
    (htag : isSchemaTag ("!" ++ w) = false) :
    ComposesValue [⟨line, .tag "!" w⟩] (.scalar (line + 1) ("!" ++ w) true []) := by
  refine ⟨⟨_, _, rfl, .tag _ _⟩, fun fuel c rest hfuel hhandles hends htokens => ?_⟩
  obtain ⟨fuel, rfl⟩ := Nat.exists_eq_add_of_le' (show 2 ≤ fuel from hfuel)
  rw [List.singleton_append] at htokens
  have hpeek := peek_of_tokens htokens
  let p : NodeProperties := { line? := some line, tag? := some ("!" ++ w) }
  have hexpand : expandTag? c.handles "!" w = some ("!" ++ w) := by
    rw [hhandles]
    rfl
  have hget : (get : Compose Composer) c = .ok (c, c) := rfl
  have hproperty : tagProperty {} c = .ok (p, { c with tokens := rest }) := by
    rw [tagProperty, bind_of_ok hpeek]
    refine (bind_of_ok hget _).trans ?_
    rw [hexpand]
    exact bind_of_ok (skip_of_tokens htokens) fun _ => pure p
  have hanchor : anchorProperty {} c = .ok ({}, c) := by
    rw [anchorProperty, bind_of_ok hpeek]
    rfl
  -- the next token is neither an anchor nor a content
  obtain ⟨t, ht, hnext, hcontent⟩ : ∃ t,
      peek { c with tokens := rest } = .ok (t, { c with tokens := rest }) ∧
      anchorProperty p { c with tokens := rest } = .ok (p, { c with tokens := rest }) ∧
      content (fuel + 1) .mapping p t = pure (p.scalar t.line [] true) := by
    cases hends with
    | key line' rest =>
      refine ⟨_, peek_of_tokens rfl, ?_, rfl⟩
      rw [anchorProperty, bind_of_ok (peek_of_tokens rfl)]
      rfl
    | stop line' rest =>
      refine ⟨_, peek_of_tokens rfl, ?_, rfl⟩
      rw [anchorProperty, bind_of_ok (peek_of_tokens rfl)]
      rfl
  have hproperties : properties c = .ok (p, { c with tokens := rest }) := by
    rw [properties, bind_of_ok hanchor, bind_of_ok hproperty]
    exact hnext
  have hdeclare : declareAnchor p.anchor? { c with tokens := rest }
      = .ok (none, { c with tokens := rest }) := rfl
  have hmark : "!" ++ w ≠ Text.ofString "!" := fun h => hw (List.append_right_eq_self.mp h)
  have hscalar : p.scalar t.line [] true = .scalar (line + 1) ("!" ++ w) true [] := by
    rw [NodeProperties.scalar_of_tag rfl hmark, shortTag_of_foreign htag]
    rfl
  rw [node, bind_of_ok hpeek]
  refine (bind_of_ok hproperties _).trans ?_
  rw [bind_of_ok ht, bind_of_ok hdeclare, hcontent, hscalar]
  rfl

/-! ## Lists -/

/-- The tokens are an item of a list. -/
inductive ComposesItem : List Token → Node → Prop
  | mk (line : Nat) {ts : List Token} {n : Node} (h : ComposesBlock ts n) :
      ComposesItem (⟨line, .blockEntry⟩ :: ts) n

theorem blockItems_end {line : Nat} {rest : List Token}
    (htokens : c.tokens = ⟨line, .blockEnd⟩ :: rest) (fuel : Nat) :
    blockItems (fuel + 1) c = .ok ([], { c with tokens := rest }) := by
  rw [blockItems, bind_of_ok (peek_of_tokens htokens)]
  exact bind_of_ok (skip_of_tokens htokens) fun _ => pure []

theorem blockItems_of_composes {tss : List (List Token)} {ns : List Node}
    (h : List.Forall₂ ComposesItem tss ns) (hhandles : c.handles = standardHandles) {line : Nat}
    {rest : List Token} {fuel : Nat} (hfuel : 2 * tss.flatten.length < fuel)
    (htokens : c.tokens = tss.flatten ++ ⟨line, .blockEnd⟩ :: rest) :
    blockItems fuel c = .ok (ns, { c with tokens := rest }) := by
  induction h generalizing c fuel with
  | nil =>
    obtain ⟨fuel, rfl⟩ := Nat.exists_eq_add_one.mpr (Nat.zero_lt_of_lt hfuel)
    exact blockItems_end htokens fuel
  | @cons ts n tss ns hts _ ih =>
    obtain ⟨fuel, rfl⟩ := Nat.exists_eq_add_one.mpr (Nat.zero_lt_of_lt hfuel)
    obtain ⟨line', hts⟩ := hts
    rename_i ts
    rw [List.flatten_cons, List.length_append, List.length_cons] at hfuel
    rw [List.flatten_cons, List.cons_append, List.cons_append, List.append_assoc] at htokens
    have hnode := hts.node_eq fuel .block { c with tokens := ts ++ (tss.flatten ++
      ⟨line, .blockEnd⟩ :: rest) } _ (by omega) (by decide) hhandles rfl
    have hitems := bind_of_ok hnode fun item => blockItems fuel >>= fun ns => pure (item :: ns)
    have hrest := ih (c := { c with tokens := tss.flatten ++ ⟨line, .blockEnd⟩ :: rest }) hhandles
      (show 2 * tss.flatten.length < fuel by omega) rfl
    rw [bind_of_ok hrest] at hitems
    obtain ⟨⟨line'', lexeme⟩, ts', rfl, ht⟩ := hts.opens
    rw [blockItems, bind_of_ok (peek_of_tokens htokens)]
    refine (bind_of_ok (skip_of_tokens htokens) _).trans ?_
    rw [bind_of_ok (peek_of_tokens rfl)]
    cases ht <;> exact hitems

/-- **A list is built**, if its items are. -/
theorem composesBlock_sequence (first last : Nat) {tss : List (List Token)} {ns : List Node}
    (h : List.Forall₂ ComposesItem tss ns) :
    ComposesBlock (⟨first, .blockSequenceStart⟩ :: tss.flatten ++ [⟨last, .blockEnd⟩])
      (.sequence (first + 1) schema.seq ns) := by
  refine ⟨⟨_, _, rfl, .blockSequence⟩, fun fuel place c rest hfuel hplace hhandles htokens => ?_⟩
  rw [List.cons_append, List.length_cons, List.length_append, List.length_singleton] at hfuel
  rw [List.cons_append, List.cons_append, List.append_assoc, List.singleton_append] at htokens
  obtain ⟨fuel, rfl⟩ := Nat.exists_eq_add_of_le' (show 2 ≤ fuel by omega)
  have hitems := bind_of_ok (skip_of_tokens htokens) fun _ =>
    blockItems fuel >>= fun ns => pure (({} : NodeProperties).sequence first ns)
  have hall := blockItems_of_composes (c := { c with
    tokens := tss.flatten ++ ⟨last, .blockEnd⟩ :: rest }) h hhandles
    (show 2 * tss.flatten.length < fuel by omega) rfl
  rw [bind_of_ok hall] at hitems
  rw [node_of_opens htokens .blockSequence]
  cases place with
  | flow => exact absurd rfl hplace
  | block => exact hitems
  | mapping => exact hitems

/-- A list of which nothing is written. -/
theorem composesBlock_nothing (first last : Nat) :
    ComposesBlock [⟨first, .flowSequenceStart⟩, ⟨last, .flowSequenceEnd⟩]
      (.sequence (first + 1) schema.seq []) := by
  refine ⟨⟨_, _, rfl, .sequence⟩, fun fuel place c rest hfuel _ _ htokens => ?_⟩
  obtain ⟨fuel, rfl⟩ := Nat.exists_eq_add_of_le' (show 3 ≤ fuel from Nat.le_of_succ_le hfuel)
  have hitems := bind_of_ok (skip_of_tokens htokens) fun _ =>
    flowItems (fuel + 1) true >>= fun ns => pure (({} : NodeProperties).sequence first ns)
  rw [bind_of_ok (flowItems_end rfl fuel true)] at hitems
  rw [node_of_opens htokens .sequence]
  exact hitems

/-! ## Mappings -/

/-- The tokens are an entry of a mapping. -/
inductive ComposesEntry : List Token → Node × Node → Prop
  | mk (l₁ l₂ l₃ : Nat) (key : Text) {ts : List Token} {n : Node} (h : ComposesValue ts n) :
      ComposesEntry (⟨l₁, .key⟩ :: ⟨l₂, .scalar key true⟩ :: ⟨l₃, .value⟩ :: ts)
        (({} : NodeProperties).scalar l₂ key true, n)

/-- Another entry follows, or the end of the mapping. -/
theorem endsValue_entries {tss : List (List Token)} {es : List (Node × Node)}
    (h : List.Forall₂ ComposesEntry tss es) (line : Nat) (rest : List Token) :
    EndsValue (tss.flatten ++ ⟨line, .blockEnd⟩ :: rest) := by
  cases h with
  | nil => exact .stop line rest
  | cons hts _ =>
    obtain ⟨line', _, _, _, _⟩ := hts
    exact .key line' _

theorem blockEntries_end {line : Nat} {rest : List Token}
    (htokens : c.tokens = ⟨line, .blockEnd⟩ :: rest) (fuel : Nat) :
    blockEntries (fuel + 1) c = .ok ([], { c with tokens := rest }) := by
  rw [blockEntries, bind_of_ok (peek_of_tokens htokens)]
  exact bind_of_ok (skip_of_tokens htokens) fun _ => pure []

/-- The value after a colon. -/
theorem blockValue_of_composes {line : Nat} {ts : List Token} {n : Node} (h : ComposesValue ts n)
    (hhandles : c.handles = standardHandles) {rest : List Token} (hrest : EndsValue rest)
    {fuel : Nat} (hfuel : 2 * ts.length ≤ fuel)
    (htokens : c.tokens = ⟨line, .value⟩ :: (ts ++ rest)) :
    blockValue (fuel + 1) c = .ok (n, { c with tokens := rest }) := by
  have hnode := h.node_eq fuel { c with tokens := ts ++ rest } rest hfuel hhandles hrest rfl
  obtain ⟨⟨line', lexeme⟩, ts', rfl, ht⟩ := h.starts
  rw [blockValue, bind_of_ok (peek_of_tokens htokens)]
  refine (bind_of_ok (skip_of_tokens htokens) fun _ => _).trans ?_
  rw [bind_of_ok (peek_of_tokens rfl)]
  cases ht with
  | opens ht => cases ht <;> exact hnode
  | tag handle suffix => exact hnode

theorem blockEntries_of_composes {tss : List (List Token)} {es : List (Node × Node)}
    (h : List.Forall₂ ComposesEntry tss es) (hhandles : c.handles = standardHandles) {line : Nat}
    {rest : List Token} {fuel : Nat} (hfuel : 2 * tss.flatten.length < fuel)
    (htokens : c.tokens = tss.flatten ++ ⟨line, .blockEnd⟩ :: rest) :
    blockEntries fuel c = .ok (es, { c with tokens := rest }) := by
  induction h generalizing c fuel with
  | nil =>
    obtain ⟨fuel, rfl⟩ := Nat.exists_eq_add_one.mpr (Nat.zero_lt_of_lt hfuel)
    exact blockEntries_end htokens fuel
  | @cons ts e tss es hts htss ih =>
    obtain ⟨l₁, l₂, l₃, key, hvalue⟩ := hts
    rename_i ts n
    simp only [List.flatten_cons, List.length_append, List.length_cons] at hfuel
    simp only [List.flatten_cons, List.cons_append, List.append_assoc] at htokens
    obtain ⟨fuel, rfl⟩ := Nat.exists_eq_add_of_le' (show 2 ≤ fuel by omega)
    have hkey := (composes_scalar l₂ key true).node_eq (fuel + 1) .mapping
      { c with tokens := ⟨l₂, .scalar key true⟩ :: ⟨l₃, .value⟩ ::
        (ts ++ (tss.flatten ++ ⟨line, .blockEnd⟩ :: rest)) } _
      (by simp only [List.length_singleton]; omega) rfl
    have hentries := bind_of_ok hkey fun key => blockValue (fuel + 1) >>= fun val =>
      blockEntries (fuel + 1) >>= fun es => pure ((key, val) :: es)
    have hcolon := blockValue_of_composes (c := { c with tokens := ⟨l₃, .value⟩ ::
      (ts ++ (tss.flatten ++ ⟨line, .blockEnd⟩ :: rest)) }) hvalue hhandles
      (endsValue_entries htss line rest) (show 2 * ts.length ≤ fuel by omega) rfl
    have hrest := ih (c := { c with tokens := tss.flatten ++ ⟨line, .blockEnd⟩ :: rest }) hhandles
      (show 2 * tss.flatten.length < fuel + 1 by omega) rfl
    rw [bind_of_ok hcolon, bind_of_ok hrest] at hentries
    rw [blockEntries, bind_of_ok (peek_of_tokens htokens)]
    refine (bind_of_ok (skip_of_tokens htokens) _).trans ?_
    rw [bind_of_ok (peek_of_tokens rfl)]
    exact hentries

/-- **A mapping is built**, if its entries are. -/
theorem composesBlock_mapping (first last : Nat) {tss : List (List Token)}
    {es : List (Node × Node)} (h : List.Forall₂ ComposesEntry tss es) :
    ComposesBlock (⟨first, .blockMappingStart⟩ :: tss.flatten ++ [⟨last, .blockEnd⟩])
      (.mapping (first + 1) schema.map es) := by
  refine ⟨⟨_, _, rfl, .blockMapping⟩, fun fuel place c rest hfuel hplace hhandles htokens => ?_⟩
  rw [List.cons_append, List.length_cons, List.length_append, List.length_singleton] at hfuel
  rw [List.cons_append, List.cons_append, List.append_assoc, List.singleton_append] at htokens
  obtain ⟨fuel, rfl⟩ := Nat.exists_eq_add_of_le' (show 2 ≤ fuel by omega)
  have hentries := bind_of_ok (skip_of_tokens htokens) fun _ =>
    blockEntries fuel >>= fun es => pure (({} : NodeProperties).mapping first es)
  have hall := blockEntries_of_composes (c := { c with
    tokens := tss.flatten ++ ⟨last, .blockEnd⟩ :: rest }) h hhandles
    (show 2 * tss.flatten.length < fuel by omega) rfl
  rw [bind_of_ok hall] at hentries
  rw [node_of_opens htokens .blockMapping]
  cases place with
  | flow => exact absurd rfl hplace
  | block => exact hentries
  | mapping => exact hentries

/-! ## What is built -/

/-- A node for which `P` holds is built from all tokens of these kinds, whatever follows them. -/
def BuildsBlock (lexemes : List Lexeme) (P : Node → Prop) : Prop :=
  ∀ ts, ts.map Token.lexeme = lexemes → ∃ n, P n ∧ ComposesBlock ts n

/-- A node for which `P` holds is built from all tokens of these kinds, after a key. -/
def BuildsValue (lexemes : List Lexeme) (P : Node → Prop) : Prop :=
  ∀ ts, ts.map Token.lexeme = lexemes → ∃ n, P n ∧ ComposesValue ts n

theorem BuildsBlock.value {lexemes : List Lexeme} {P : Node → Prop} (h : BuildsBlock lexemes P) :
    BuildsValue lexemes P := by
  intro ts hts
  obtain ⟨n, hn, hcomposes⟩ := h ts hts
  exact ⟨n, hn, hcomposes.value⟩

theorem BuildsBlock.mono {lexemes : List Lexeme} {P Q : Node → Prop} (h : BuildsBlock lexemes P)
    (hPQ : ∀ n, P n → Q n) : BuildsBlock lexemes Q := by
  intro ts hts
  obtain ⟨n, hn, hcomposes⟩ := h ts hts
  exact ⟨n, hPQ n hn, hcomposes⟩

theorem buildsBlock_quoted (s : Text) : BuildsBlock [.scalar s false] (Node.IsText · s) := by
  intro ts hts
  obtain ⟨line, rest, rfl, hrest⟩ := exists_of_map_cons hts
  obtain rfl := List.map_eq_nil_iff.mp hrest
  exact ⟨_, ⟨line + 1, rfl⟩, (composes_quoted line s).block⟩

theorem buildsValue_tag {w : Text} (hw : w ≠ []) (htag : isSchemaTag ("!" ++ w) = false) :
    BuildsValue [.tag "!" w] (Node.IsTag · ("!" ++ w)) := by
  intro ts hts
  obtain ⟨line, rest, rfl, hrest⟩ := exists_of_map_cons hts
  obtain rfl := List.map_eq_nil_iff.mp hrest
  exact ⟨_, ⟨line + 1, rfl⟩, composesValue_tag line hw htag⟩

theorem buildsBlock_nothing :
    BuildsBlock [.flowSequenceStart, .flowSequenceEnd] (Node.IsSequence · []) := by
  intro ts hts
  obtain ⟨first, rest, rfl, hrest⟩ := exists_of_map_cons hts
  obtain ⟨last, rest', rfl, hnil⟩ := exists_of_map_cons hrest
  obtain rfl := List.map_eq_nil_iff.mp hnil
  exact ⟨_, ⟨first + 1, [], rfl, .nil⟩, composesBlock_nothing first last⟩

/-- Tokens between a start and the end of a block, by their kinds. -/
theorem exists_of_map_block {ts : List Token} {start : Lexeme} {lss : List (List Lexeme)}
    (h : ts.map Token.lexeme = start :: lss.flatten ++ [.blockEnd]) :
    ∃ first tss last, ts = ⟨first, start⟩ :: tss.flatten ++ [⟨last, .blockEnd⟩] ∧
      List.Forall₂ (fun lexemes ts => List.map Token.lexeme ts = lexemes) lss tss := by
  obtain ⟨first, rest, rfl, hrest⟩ := exists_of_map_cons h
  obtain ⟨inner, stop, rfl, hinner, hstop⟩ := List.map_eq_append_iff.mp hrest
  obtain ⟨tss, rfl, htss⟩ := exists_of_map_flatten hinner
  obtain ⟨last, rest, rfl, hnil⟩ := exists_of_map_cons hstop
  obtain rfl := List.map_eq_nil_iff.mp hnil
  exact ⟨first, tss, last, rfl, htss⟩

/-- Parts are built one by one, if each of them is built from all tokens of its kinds. -/
theorem exists_of_parts {α β : Type} {builds : List Lexeme → β → Prop}
    {composes : List Token → α → Prop} {meets : α → β → Prop}
    (hpart : ∀ {ls : List Lexeme} {b : β} {ts : List Token}, builds ls b →
      ts.map Token.lexeme = ls → ∃ a, meets a b ∧ composes ts a)
    {lss : List (List Lexeme)} {bs : List β} (h : List.Forall₂ builds lss bs)
    {tss : List (List Token)}
    (htss : List.Forall₂ (fun ls ts => List.map Token.lexeme ts = ls) lss tss) :
    ∃ as, List.Forall₂ meets as bs ∧ List.Forall₂ composes tss as := by
  induction h generalizing tss with
  | nil =>
    cases htss
    exact ⟨[], .nil, .nil⟩
  | cons hb _ ih =>
    cases htss with
    | cons hts htss =>
      obtain ⟨a, ha, hcomposes⟩ := hpart hb hts
      obtain ⟨as, has, hall⟩ := ih htss
      exact ⟨a :: as, .cons ha has, .cons hcomposes hall⟩

/-- An item is built from the tokens of these kinds. -/
inductive BuildsItem : List Lexeme → (Node → Prop) → Prop
  | mk {lexemes : List Lexeme} {P : Node → Prop} (h : BuildsBlock lexemes P) :
      BuildsItem (.blockEntry :: lexemes) P

theorem buildsBlock_sequence {lss : List (List Lexeme)} {Ps : List (Node → Prop)}
    (h : List.Forall₂ BuildsItem lss Ps) :
    BuildsBlock (.blockSequenceStart :: lss.flatten ++ [.blockEnd]) (Node.IsSequence · Ps) := by
  intro ts hts
  obtain ⟨first, tss, last, rfl, htss⟩ := exists_of_map_block hts
  obtain ⟨ns, hns, hitems⟩ : ∃ ns, List.Forall₂ (fun n P => P n) ns Ps ∧
      List.Forall₂ ComposesItem tss ns := by
    refine exists_of_parts ?_ h htss
    rintro _ P ts ⟨hblock⟩ hts
    obtain ⟨line, rest, rfl, hrest⟩ := exists_of_map_cons hts
    obtain ⟨n, hn, hcomposes⟩ := hblock rest hrest
    exact ⟨n, hn, .mk line hcomposes⟩
  exact ⟨_, ⟨first + 1, ns, rfl, hns⟩, composesBlock_sequence first last hitems⟩

/-- An entry is built from the tokens of these kinds. Its key is a string, though it is not
quoted. -/
inductive BuildsEntry : List Lexeme → Text × (Node → Prop) → Prop
  | mk {key : Text} {lexemes : List Lexeme} {P : Node → Prop}
      (hkey : ∀ line, Node.IsText (({} : NodeProperties).scalar line key true) key)
      (h : BuildsValue lexemes P) :
      BuildsEntry (.key :: .scalar key true :: .value :: lexemes) (key, P)

theorem buildsBlock_mapping {lss : List (List Lexeme)} {fields : List (Text × (Node → Prop))}
    (h : List.Forall₂ BuildsEntry lss fields) :
    BuildsBlock (.blockMappingStart :: lss.flatten ++ [.blockEnd])
      (Node.IsMapping · fields) := by
  intro ts hts
  obtain ⟨first, tss, last, rfl, htss⟩ := exists_of_map_block hts
  obtain ⟨es, hes, hentries⟩ : ∃ es,
      List.Forall₂ (fun (e : Node × Node) (field : Text × (Node → Prop)) =>
        Node.IsText e.1 field.1 ∧ field.2 e.2) es fields ∧
      List.Forall₂ ComposesEntry tss es := by
    refine exists_of_parts ?_ h htss
    rintro _ _ ts ⟨hkey, hvalue⟩ hts
    obtain ⟨l₁, ts₁, rfl, hts₁⟩ := exists_of_map_cons hts
    obtain ⟨l₂, ts₂, rfl, hts₂⟩ := exists_of_map_cons hts₁
    obtain ⟨l₃, ts₃, rfl, hts₃⟩ := exists_of_map_cons hts₂
    obtain ⟨n, hn, hcomposes⟩ := hvalue ts₃ hts₃
    exact ⟨_, ⟨hkey l₂, hn⟩, .mk l₁ l₂ l₃ _ hcomposes⟩
  exact ⟨_, ⟨first + 1, es, rfl, hes⟩, composesBlock_mapping first last hentries⟩

end Compose

/-- **The document of tokens that are one value.** There are no anchors in it. -/
theorem Graph.exists_of_buildsBlock {lexemes : List Lexeme} {P : Node → Prop}
    (h : Compose.BuildsBlock lexemes P) {ts : List Token} {last : Lexeme}
    (hts : ts.map Token.lexeme = lexemes ++ [last]) :
    ∃ n, P n ∧ Graph.ofTokens? ts = .ok (some ⟨n, [], ts.length⟩) := by
  obtain ⟨ts, stop, rfl, hvalue, hstop⟩ := List.map_eq_append_iff.mp hts
  obtain ⟨line, rest, rfl, hnil⟩ := Compose.exists_of_map_cons hstop
  obtain rfl := List.map_eq_nil_iff.mp hnil
  obtain ⟨n, hn, hcomposes⟩ := h ts hvalue
  have hnode := hcomposes.node_eq (4 * (ts ++ [Token.mk line last]).length + 8) .block
    { tokens := ts ++ [⟨line, last⟩] } [⟨line, last⟩] (by simp only [List.length_append]; omega)
    (by decide) rfl rfl
  obtain ⟨t, ts', rfl, ht⟩ := hcomposes.opens
  exact ⟨n, hn, ofTokens?_of_node ht hnode⟩

end Yaml
end StateForge
