import StateForge.Proofs.Translation

/-!
# Names that clash

The names of states, actions and predicates end up in one source, together with the names that every
generated source has. C has one space of names for all of them. Validation looks at each name alone,
so it accepts a machine in which one name plays two parts.

`OneMeaning` says of a header and a source that no identifier in them has two meanings;
`Machine.NamesApart` says of a machine that its names do not clash. The two are the same for every
machine that is accepted (`Machine.oneMeaning_iff`), and there are accepted machines for which they
fail. What the preprocessor makes of a name is left out of both, so the names of macros, such as the
one that guards a header, count as apart from all others.
-/

set_option autoImplicit false

namespace StateForge

namespace Fragment

/-! ## What an identifier stands for -/

/-- What an identifier can stand for. -/
inductive Meaning where
  | enumerator
  /-- A variable of the source. -/
  | storage
  /-- A function that the source defines. -/
  | own
  /-- A function that the source takes from elsewhere. -/
  | foreign (type : ReturnType)
deriving DecidableEq

/-- The identifiers that a declaration introduces. What it means to be announced depends on where
that happens. -/
def Decl.meanings (announcedAs : ReturnType → Meaning) : Decl → List (Text × Meaning)
  | enumeration _ names => names.map fun n => (n, .enumerator)
  | announced type f => [(f, announcedAs type)]
  | global _ x _ => [(x, .storage)]
  | function f _ _ => [(f, .own)]

/-- The identifiers that a header and its source introduce. A header announces what its source
defines; a source announces what it takes from elsewhere. -/
def meanings (header source : List Decl) : List (Text × Meaning) :=
  header.flatMap (Decl.meanings fun _ => .own) ++ source.flatMap (Decl.meanings .foreign)

/-- The functions that an operand calls. -/
def Operand.calls : Operand → List Text
  | name _ => []
  | call f => [f]
  | negation o => o.calls

/-- The functions that an expression calls. -/
def Expr.calls : Expr → List Text
  | operand o => o.calls
  | differ a b => a.calls ++ b.calls

/-- The names that code uses for functions and labels, which no variable can stand in for. -/
def Code.references : Code → List Text
  | done => []
  | assign _ e rest => e.calls ++ rest.references
  | call f rest => f :: rest.references
  | leave rest => rest.references
  | label l rest => l :: rest.references
  | branch c yes no rest => c.calls ++ (yes.references ++ (no.references ++ rest.references))
  | choose e body rest => e.calls ++ (body.references ++ rest.references)

/-- No identifier of the list comes with two meanings. -/
def Unambiguous (ps : List (Text × Meaning)) : Prop :=
  ∀ p ∈ ps, ∀ q ∈ ps, p.1 = q.1 → p.2 = q.2

instance (ps : List (Text × Meaning)) : Decidable (Unambiguous ps) :=
  inferInstanceAs (Decidable (∀ p ∈ ps, ∀ q ∈ ps, p.1 = q.1 → p.2 = q.2))

/-- No identifier has two meanings: none is introduced twice as different things, and no variable of
a function hides a function or an enumerator that the function refers to. -/
structure OneMeaning (header source : List Decl) : Prop where
  introduced : Unambiguous (meanings header source)
  unhidden : ∀ (f : Text) (locals : List Local) (body : Code), .function f locals body ∈ source →
    ∀ l ∈ locals, l.name ∉ body.references

end Fragment

open Fragment

/-! ## Names of a machine -/

/-- What every generated source introduces. -/
def fixedMeanings : List (Text × Meaning) :=
  [(currentVariable, .storage), (runName, .own), (transitionName, .own)]

/-- The names that every generated source has. -/
def fixedNames : List Text :=
  fixedMeanings.map Prod.fst

/-- No name is in both lists. -/
def Text.Apart (a b : List Text) : Prop :=
  ∀ n ∈ a, n ∉ b

instance (a b : List Text) : Decidable (Text.Apart a b) :=
  inferInstanceAs (Decidable (∀ n ∈ a, n ∉ b))

/-- The names of states, actions and predicates and the fixed names do not clash. The variable for
the next state only matters where states and predicates are referred to, so an action may have its
name. Macros are not looked at: the one that guards the header is not among the fixed names, though
the preprocessor erases every other use of its name. -/
structure Machine.NamesApart (m : Machine) : Prop where
  groups : [m.stateNames, m.actions, m.predicateNames, fixedNames].Pairwise Text.Apart
  next_state : nextVariable ∉ m.stateNames
  next_predicate : nextVariable ∉ m.predicateNames

instance (m : Machine) : Decidable m.NamesApart :=
  decidable_of_iff
    ([m.stateNames, m.actions, m.predicateNames, fixedNames].Pairwise Text.Apart ∧
      nextVariable ∉ m.stateNames ∧ nextVariable ∉ m.predicateNames)
    ⟨fun h => ⟨h.1, h.2.1, h.2.2⟩, fun h => ⟨h.groups, h.next_state, h.next_predicate⟩⟩

/-! ## What a generated source introduces -/

/-- If groups of identifiers differ in meaning, they are unambiguous together just when no two of
them share an identifier. -/
theorem unambiguous_flatten_iff {groups : List (List (Text × Meaning))}
    (hself : ∀ g ∈ groups, Unambiguous g)
    (hcross : groups.Pairwise fun g h => ∀ p ∈ g, ∀ q ∈ h, p.2 ≠ q.2) :
    Unambiguous groups.flatten ↔ (groups.map (List.map Prod.fst)).Pairwise Text.Apart := by
  induction groups with
  | nil => simp [Unambiguous]
  | cons g groups ih =>
    obtain ⟨hg, hcross⟩ := List.pairwise_cons.mp hcross
    have hrest := ih (fun h hh => hself h (List.mem_cons_of_mem _ hh)) hcross
    rw [List.map_cons, List.pairwise_cons, List.flatten_cons, ← hrest]
    constructor
    · intro hall
      refine ⟨?_, fun p hp q hq =>
        hall p (List.mem_append_right _ hp) q (List.mem_append_right _ hq)⟩
      intro names hnames n hn hn'
      obtain ⟨h, hh, rfl⟩ := List.mem_map.mp hnames
      obtain ⟨p, hp, rfl⟩ := List.mem_map.mp hn
      obtain ⟨q, hq, hpq⟩ := List.mem_map.mp hn'
      exact hg h hh p hp q hq (hall p (List.mem_append_left _ hp) q
        (List.mem_append_right _ (List.mem_flatten.mpr ⟨h, hh, hq⟩)) hpq.symm)
    · rintro ⟨hfirst, hothers⟩
      have hapart : ∀ p ∈ g, ∀ q ∈ groups.flatten, p.1 ≠ q.1 := by
        intro p hp q hq hpq
        obtain ⟨h, hh, hq⟩ := List.mem_flatten.mp hq
        exact hfirst _ (List.mem_map.mpr ⟨h, hh, rfl⟩) p.1 (List.mem_map.mpr ⟨p, hp, rfl⟩)
          (List.mem_map.mpr ⟨q, hq, hpq.symm⟩)
      intro p hp q hq hpq
      rcases List.mem_append.mp hp with hp | hp <;> rcases List.mem_append.mp hq with hq | hq
      · exact hself g (by simp) p hp q hq hpq
      · exact absurd hpq (hapart p hp q hq)
      · exact absurd hpq.symm (hapart q hq p hp)
      · exact hothers p hp q hq hpq

namespace Machine

/-- The groups of identifiers of a generated source. -/
def identifierGroups (m : Machine) : List (List (Text × Meaning)) :=
  [m.stateNames.map (·, .enumerator), m.actions.map (·, .foreign .void),
   m.predicateNames.map (·, .foreign .bool), fixedMeanings]

theorem mem_meanings {m : Machine} {p : Text × Meaning} :
    p ∈ meanings m.interface m.program ↔ p ∈ m.identifierGroups.flatten := by
  simp only [meanings, interface, program, definitions, identifierGroups, fixedMeanings,
    List.flatMap_append, List.flatMap_map, List.flatMap_cons, List.flatMap_nil, Decl.meanings,
    List.flatten_cons, List.flatten_nil, ← List.map_eq_flatMap, List.mem_append, List.mem_cons,
    List.not_mem_nil]
  grind

/-- **No identifier is introduced with two meanings exactly if the groups of names are
disjoint.** -/
theorem unambiguous_meanings_iff {m : Machine} :
    Unambiguous (meanings m.interface m.program) ↔
      [m.stateNames, m.actions, m.predicateNames, fixedNames].Pairwise Text.Apart := by
  have hconst : ∀ (names : List Text) (a : Meaning), Unambiguous (names.map (·, a)) := by
    intro names a p hp q hq _
    obtain ⟨_, _, rfl⟩ := List.mem_map.mp hp
    obtain ⟨_, _, rfl⟩ := List.mem_map.mp hq
    rfl
  have hfixed : Unambiguous fixedMeanings := by decide
  have hself : ∀ g ∈ m.identifierGroups, Unambiguous g := by
    simp [identifierGroups, hconst, hfixed]
  have hcross : m.identifierGroups.Pairwise fun g h => ∀ p ∈ g, ∀ q ∈ h, p.2 ≠ q.2 := by
    simp only [identifierGroups, fixedMeanings, List.pairwise_cons, List.Pairwise.nil,
      List.mem_cons, List.not_mem_nil, List.mem_map]
    grind
  have hnames : m.identifierGroups.map (List.map Prod.fst)
      = [m.stateNames, m.actions, m.predicateNames, fixedNames] := by
    simp [identifierGroups, fixedNames, Function.comp_def]
  rw [← hnames, ← unambiguous_flatten_iff hself hcross]
  simp only [Unambiguous, mem_meanings]

end Machine

/-! ## What the code refers to -/

theorem Predicate.calls_condition (p : Predicate) : p.condition.calls = [p.name] := by
  rw [condition]
  split <;> rfl

/-- A chain of conditions refers to all its predicates, since nothing comes after an unconditional
transition. -/
theorem Transition.mem_references_code {ts : List Transition}
    (h : ∀ t ∈ ts.dropLast, t.isUnconditional = false) {rest : Code} {x : Text} :
    x ∈ (code ts rest).references ↔
      (∃ t ∈ ts, t.isUnconditional = false ∧ t.predicate.name = x) ∨ x ∈ rest.references := by
  induction ts generalizing rest with
  | nil => simp [code]
  | cons t ts ih =>
    by_cases hu : t.isUnconditional = true
    · have hlast : ts = [] := by
        cases ts with
        | nil => rfl
        | cons t' ts => exact absurd (h t (by simp)) (by simp [hu])
      subst hlast
      simp [code, choice, Code.references, Expr.calls, Operand.calls, hu]
    · have hrest : ∀ t' ∈ ts.dropLast, t'.isUnconditional = false := by
        intro t' ht'
        cases ts with
        | nil => simp at ht'
        | cons _ _ => exact h t' (by rw [List.dropLast_cons_cons]; exact List.mem_cons_of_mem _ ht')
      have hchoice : (t.choice .done).references = [] := rfl
      rw [code, if_neg hu, Code.references, Predicate.calls_condition, hchoice]
      simp only [List.mem_append, ih hrest, Code.references, List.not_mem_nil, List.mem_cons,
        exists_eq_or_imp, Bool.not_eq_true] at hu ⊢
      simp only [hu, true_and, false_or, or_false, or_assoc, eq_comm]

namespace Machine

/-- Cases refer to what each of them refers to. -/
theorem mem_references_foldr {f : State → Code → Code} {P : State → Prop} {x : Text}
    {states : List State}
    (hf : ∀ st ∈ states, ∀ rest, x ∈ (f st rest).references ↔ P st ∨ x ∈ rest.references) :
    x ∈ (states.foldr f .done).references ↔ ∃ st ∈ states, P st := by
  induction states with
  | nil => simp [Code.references]
  | cons st rest ih =>
    rw [List.foldr_cons, hf st (by simp), ih fun s hs => hf s (List.mem_cons_of_mem _ hs)]
    simp

/-- The function that moves to the next state refers to all states and all predicates. -/
theorem mem_references_transitionBody {m : Machine} (hm : m.WellFormed) {x : Text} :
    x ∈ m.transitionBody.references ↔ x ∈ m.stateNames ∨ x ∈ m.predicateNames := by
  have hcases : x ∈ (m.states.foldr State.transitionCode .done).references ↔
      ∃ st ∈ m.states, x = st.name ∨
        ∃ t ∈ st.transitions, t.isUnconditional = false ∧ t.predicate.name = x := by
    refine mem_references_foldr fun st hst rest => ?_
    rw [State.transitionCode, Code.references, List.mem_cons,
      Transition.mem_references_code (hm.conditional hst), Code.references, or_assoc]
  have hcommit : commit.references = [] := rfl
  rw [transitionBody, Code.references, hcommit, List.append_nil]
  simp only [Expr.calls, Operand.calls, List.nil_append]
  rw [hcases, mem_predicateNames, stateNames, List.mem_map]
  constructor
  · rintro ⟨st, hst, rfl | hpred⟩
    · exact .inl ⟨st, hst, rfl⟩
    · exact .inr ⟨st, hst, hpred⟩
  · rintro (⟨st, hst, rfl⟩ | ⟨st, hst, hpred⟩)
    · exact ⟨st, hst, .inl rfl⟩
    · exact ⟨st, hst, .inr hpred⟩

/-! ## The law -/

/-- **Exactly the machines whose names are apart give sources in which no identifier has two
meanings.** -/
theorem oneMeaning_iff {m : Machine} (hm : m.WellFormed) :
    OneMeaning m.interface m.program ↔ m.NamesApart := by
  have hhidden : (∀ (f : Text) (locals : List Local) (body : Code),
      .function f locals body ∈ m.program → ∀ l ∈ locals, l.name ∉ body.references) ↔
      nextVariable ∉ m.transitionBody.references := by
    constructor
    · intro h
      exact h transitionName [nextLocal] m.transitionBody (by simp [program, definitions]) nextLocal
        (by simp)
    · intro h f locals body hf l hl
      simp [program, definitions] at hf
      rcases hf with ⟨-, rfl, -⟩ | ⟨-, rfl, rfl⟩
      · simp at hl
      · rw [List.mem_singleton] at hl
        exact hl ▸ h
  rw [mem_references_transitionBody hm, not_or] at hhidden
  constructor
  · intro h
    obtain ⟨hstate, hpredicate⟩ := hhidden.mp h.unhidden
    exact ⟨unambiguous_meanings_iff.mp h.introduced, hstate, hpredicate⟩
  · intro h
    exact ⟨unambiguous_meanings_iff.mpr h.groups, hhidden.mpr ⟨h.next_state, h.next_predicate⟩⟩

end Machine

/-- **What is generated from an accepted machine is free of ambiguous identifiers exactly if the
names of the machine are apart.** Nothing that was checked before says that they are. -/
theorem generated_oneMeaning_iff (layout : SourceLayout) {m : Machine} (hv : m.violations = []) :
    ∃ header source, parse (layout.header m) = some header ∧
      parse (layout.implementation m) = some source ∧
      (OneMeaning header source ↔ m.NamesApart) := by
  have hm := (Machine.violations_eq_nil_iff _).mp hv
  exact ⟨m.interface, m.program, layout.parse_header hm, layout.parse_implementation hm,
    Machine.oneMeaning_iff hm⟩

/-- A machine whose only state is called like the variable that holds the current state. -/
def stateNamedState : Machine :=
  ⟨[⟨"state", "act", []⟩], "state"⟩

/-- Validation lets the machine pass, and in its sources an identifier has two meanings. -/
theorem stateNamedState_ambiguous :
    stateNamedState.violations = [] ∧
      ∃ header source, parse (SourceLayout.header {} stateNamedState) = some header ∧
        parse (SourceLayout.implementation {} stateNamedState) = some source ∧
        ¬ OneMeaning header source := by
  have hv : stateNamedState.violations = [] := by decide
  obtain ⟨header, source, hheader, hsource, hiff⟩ := generated_oneMeaning_iff {} hv
  exact ⟨hv, header, source, hheader, hsource, fun h => absurd (hiff.mp h) (by decide)⟩

/-- **Not every accepted machine has names that are apart.** -/
theorem accepted_with_clash :
    ∃ m : Machine, m.Made ∧ m.violations = [] ∧ ¬ m.NamesApart := by
  have hmade : Machine.make "state" stateNamedState.states = .ok stateNamedState := rfl
  exact ⟨stateNamedState, .ofStates hmade, by decide, by decide⟩

end StateForge
