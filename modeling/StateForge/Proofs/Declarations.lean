import Mathlib.Data.List.Basic
import Mathlib.Data.Nat.Init
import StateForge.Proofs.Statements

/-!
# What an implementation declares and what it uses

An implementation declares the functions that it takes from elsewhere, one line each. The
declarations are collected by one walk over the machine and the calls are written by others, which
leave out what comes after an unconditional transition. In a machine that was accepted nothing does,
and so the two agree: what is declared is what is called, once, in the order of the first calls.

* `FirstUses` says of a list that it has what is used, in the order of the first uses, and
  `firstUses_eraseDups` that removing repetitions gives such a list.
* `Machine.calls_runBody` and `Machine.calls_conditions_transitionBody` are the calls of the two
  functions, in order.
* `SourceLayout.filter_implementation`: the lines that begin like a declaration are the
  declarations.
-/

set_option autoImplicit false

namespace StateForge

open Fragment

/-! ## First uses -/

/-- The list has everything that is used, once, in the order of the first uses. -/
structure FirstUses (uses once : List Text) : Prop where
  mem_iff : ∀ x, x ∈ once ↔ x ∈ uses
  nodup : once.Nodup
  ordered : once.Pairwise fun a b => uses.idxOf a < uses.idxOf b

/-- Leaving out other elements does not change which of two comes first. -/
theorem idxOf_lt_of_filter {p : Text → Bool} {x y : Text} (hy : p y = true) {l : List Text}
    (h : (l.filter p).idxOf x < (l.filter p).idxOf y) : l.idxOf x < l.idxOf y := by
  induction l with
  | nil => exact h
  | cons a l ih =>
    by_cases hay : a = y
    · rw [hay, List.filter_cons_of_pos hy, List.idxOf_cons_self] at h
      exact absurd h (Nat.not_lt_zero _)
    · rw [List.idxOf_cons_ne l hay]
      by_cases hax : a = x
      · rw [hax, List.idxOf_cons_self]
        exact Nat.succ_pos _
      · rw [List.idxOf_cons_ne l hax]
        refine Nat.succ_lt_succ (ih ?_)
        by_cases ha : p a = true
        · rw [List.filter_cons_of_pos ha, List.idxOf_cons_ne _ hax, List.idxOf_cons_ne _ hay] at h
          exact Nat.lt_of_succ_lt_succ h
        · rwa [List.filter_cons_of_neg ha] at h

theorem pairwise_eraseDups (l : List Text) :
    l.eraseDups.Pairwise fun a b => l.idxOf a < l.idxOf b := by
  -- on the length: after its head a list goes on without further copies of the head
  induction hn : l.length using Nat.strong_induction_on generalizing l with
  | _ n ih =>
    cases l with
    | nil => exact .nil
    | cons a l =>
      have hother : ∀ b ∈ (l.filter fun b => !b == a).eraseDups, b ≠ a := by
        intro b hb
        simpa using (List.mem_filter.mp (List.mem_eraseDups.mp hb)).2
      have hshorter := List.length_filter_le (fun b => !b == a) l
      have hrest := ih (l.filter fun b => !b == a).length (by simp at hn; omega) _ rfl
      rw [List.eraseDups_cons, List.pairwise_cons]
      refine ⟨fun b hb => ?_, hrest.imp_of_mem fun hb hc hlt => ?_⟩
      · rw [List.idxOf_cons_self, List.idxOf_cons_ne l (hother b hb).symm]
        exact Nat.succ_pos _
      · rw [List.idxOf_cons_ne l (hother _ hb).symm, List.idxOf_cons_ne l (hother _ hc).symm]
        exact Nat.succ_lt_succ (idxOf_lt_of_filter (by simpa using hother _ hc) hlt)

/-- **Removing repetitions leaves the first uses.** -/
theorem firstUses_eraseDups (l : List Text) : FirstUses l l.eraseDups where
  mem_iff _ := List.mem_eraseDups
  nodup := (pairwise_eraseDups l).imp fun hlt heq => absurd hlt (by rw [heq]; exact Nat.lt_irrefl _)
  ordered := pairwise_eraseDups l

/-! ## Calls -/

namespace Transition

/-- The conditions that a transition asks for: none or one. -/
def conditions (t : Transition) : List Expr :=
  if t.isUnconditional then [] else [t.predicate.condition]

theorem filterMap_condition?_statements (t : Transition) :
    t.statements.filterMap Statement.condition? = t.conditions := by
  rw [statements, conditions]
  split <;> rfl

theorem calls_conditions (t : Transition) :
    t.conditions.flatMap Expr.calls
      = (if t.isUnconditional then none else some t.predicate.name).toList := by
  rw [conditions]
  split
  · rfl
  · rw [List.flatMap_singleton, Predicate.calls_condition]
    rfl

/-- What is called in the condition of a transition is the whole of it, or negated there. -/
theorem eq_of_mem_calls {t : Transition} {e : Expr} (he : e ∈ t.conditions) {p : Text}
    (hp : p ∈ e.calls) : e = .operand (.call p) ∨ e = .operand (.negation (.call p)) := by
  rw [conditions] at he
  split at he
  · exact absurd he List.not_mem_nil
  · obtain rfl := List.mem_singleton.mp he
    rw [Predicate.calls_condition, List.mem_singleton] at hp
    rw [hp, Predicate.condition]
    split
    · exact .inr rfl
    · exact .inl rfl

end Transition

namespace Machine

/-- The function that runs an action calls the actions, state by state. -/
theorem calls_runBody (m : Machine) : m.runBody.calls = m.states.map State.action := by
  have hswitch : m.switchStatement.calls = [] := rfl
  rw [Code.calls, statements_runBody, List.flatMap_cons, hswitch, List.nil_append,
    List.flatMap_assoc, List.map_eq_flatMap]
  rfl

/-- The function that moves on asks for the conditions of the transitions that are reached, and at
its end whether the state changes. -/
theorem conditions_transitionBody (m : Machine) :
    m.transitionBody.conditions
      = (m.states.flatMap fun st =>
          (Transition.reached st.transitions).flatMap Transition.conditions) ++
        [.differ (.name nextVariable) (.name currentVariable)] := by
  rw [Code.conditions, m.filterMap_transitionBody (fun _ => rfl) rfl]
  simp only [Transition.filterMap_condition?_statements]
  rfl

/-- In the conditions of an accepted machine, all its predicates are called. -/
theorem calls_conditions_transitionBody {m : Machine} (hm : m.WellFormed) :
    (m.transitionBody.conditions.flatMap Expr.calls).eraseDups = m.predicateNames := by
  -- the one place where validation counts: no transition comes after an unconditional one
  have hreached : (m.states.flatMap fun st =>
      (Transition.reached st.transitions).flatMap Transition.conditions)
        = (m.states.flatMap State.transitions).flatMap Transition.conditions := by
    rw [List.flatMap_assoc]
    refine List.flatMap_congr fun st hst => ?_
    rw [Transition.reached_eq_self (hm.conditional hst)]
  have hlast : [Expr.differ (.name nextVariable) (.name currentVariable)].flatMap Expr.calls = [] :=
    rfl
  rw [conditions_transitionBody, hreached, List.flatMap_append, hlast, List.append_nil,
    List.flatMap_assoc, predicateNames, List.filterMap_eq_flatMap_toList]
  simp only [Transition.calls_conditions]

/-- A function that is called in a condition is the condition, or what the condition negates. -/
theorem mem_calls_conditions {m : Machine} {p : Text} :
    p ∈ m.transitionBody.conditions.flatMap Expr.calls ↔
      Expr.operand (.call p) ∈ m.transitionBody.conditions ∨
      Expr.operand (.negation (.call p)) ∈ m.transitionBody.conditions := by
  have hshape : ∀ e ∈ m.transitionBody.conditions, p ∈ e.calls →
      e = .operand (.call p) ∨ e = .operand (.negation (.call p)) := by
    intro e he hp
    rw [conditions_transitionBody, List.mem_append, List.mem_singleton] at he
    rcases he with he | rfl
    · obtain ⟨st, -, he⟩ := List.mem_flatMap.mp he
      obtain ⟨t, -, he⟩ := List.mem_flatMap.mp he
      exact Transition.eq_of_mem_calls he hp
    · exact absurd hp List.not_mem_nil
  rw [List.mem_flatMap]
  constructor
  · rintro ⟨e, he, hp⟩
    rcases hshape e he hp with rfl | rfl
    · exact .inl he
    · exact .inr he
  · rintro (he | he)
    · exact ⟨_, he, List.mem_singleton_self p⟩
    · exact ⟨_, he, List.mem_singleton_self p⟩

end Machine

/-! ## Lines that declare nothing -/

/-- No line begins with the letter `e`, as the lines do that declare something for other files
(`extern`, `enum`). -/
def NoneDeclares (lines : List Text) : Prop :=
  ∀ line ∈ lines, line.head? ≠ some 0x65

instance : DecidablePred NoneDeclares :=
  fun lines => inferInstanceAs (Decidable (∀ line ∈ lines, line.head? ≠ some 0x65))

namespace NoneDeclares

variable {lines more : List Text}

theorem nil : NoneDeclares [] :=
  fun _ h => absurd h List.not_mem_nil

theorem cons {line : Text} (first : Option UInt8) (hline : line.head? = first)
    (hfirst : first ≠ some 0x65) (h : NoneDeclares lines) : NoneDeclares (line :: lines) := by
  intro l hl
  rcases List.mem_cons.mp hl with rfl | hl
  · exact hline ▸ hfirst
  · exact h l hl

theorem append (h : NoneDeclares lines) (hmore : NoneDeclares more) :
    NoneDeclares (lines ++ more) := by
  intro l hl
  exact (List.mem_append.mp hl).elim (h l) (hmore l)

/-- A line that is indented declares nothing. -/
theorem indented {line : Text} (hline : line.head? = some 0x09) (h : NoneDeclares lines) :
    NoneDeclares (line :: lines) :=
  h.cons (some 0x09) hline (by decide)

theorem blank (h : NoneDeclares lines) : NoneDeclares ([] :: lines) :=
  h.cons none rfl (by decide)

theorem flatMap {f : State → List Text} (h : ∀ st, NoneDeclares (f st)) (states : List State) :
    NoneDeclares (states.flatMap f) := by
  intro l hl
  obtain ⟨st, -, hl⟩ := List.mem_flatMap.mp hl
  exact h st l hl

/-- Looking for declarations finds none. -/
theorem filter_eq_nil (h : NoneDeclares lines) {words : Text} (hwords : words.head? = some 0x65) :
    lines.filter (fun line => words.isPrefixOf line) = [] := by
  rw [List.filter_eq_nil_iff]
  intro line hline hpre
  obtain ⟨rest, rfl⟩ := List.isPrefixOf_iff_prefix.mp hpre
  exact h _ hline (by rw [List.head?_append, hwords]; rfl)

end NoneDeclares

theorem Transition.noneDeclares_chainRest (ts : List Transition) :
    NoneDeclares (chainRest ts) := by
  induction ts with
  | nil => exact .nil
  | cons t ts ih =>
    rw [chainRest]
    split
    · exact .indented rfl (.indented rfl .nil)
    · exact .indented rfl (.indented rfl ih)

theorem Transition.noneDeclares_chain (ts : List Transition) : NoneDeclares (chain ts) := by
  cases ts with
  | nil => exact .nil
  | cons t ts =>
    rw [chain]
    split
    · exact .indented rfl .nil
    · exact .indented rfl (.indented rfl ((noneDeclares_chainRest ts).append (.indented rfl .nil)))

theorem Machine.noneDeclares_runFunction (m : Machine) : NoneDeclares m.runFunction := by
  have hcases := NoneDeclares.flatMap (f := State.runCase)
    (fun _ => .indented rfl (.indented rfl (.indented rfl .nil))) m.states
  have hopening : NoneDeclares runOpening := by decide
  have hclosing : NoneDeclares runClosing := by decide
  exact (hopening.append hcases).append hclosing

theorem Machine.noneDeclares_transitionFunction (m : Machine) :
    NoneDeclares m.transitionFunction := by
  have hcases := NoneDeclares.flatMap (f := State.transitionCase)
    (fun st => .indented rfl ((Transition.noneDeclares_chain st.transitions).append
      (.indented rfl .nil))) m.states
  have hopening : NoneDeclares transitionOpening := by decide
  have hclosing : NoneDeclares transitionClosing := by decide
  exact (hopening.append hcases).append hclosing

/-! ## Declarations -/

/-- The lines that begin with the words declare the functions of these names, in this order. -/
def DeclaresAs (words : Text) (lines names : List Text) : Prop :=
  lines.filter (fun line => words.isPrefixOf line) = names.map fun name => words ++ name ++ "();"

theorem filter_declared (words : Text) (names : List Text) :
    (names.map fun name => words ++ name ++ "();").filter (fun line => words.isPrefixOf line)
      = names.map fun name => words ++ name ++ "();" := by
  rw [List.filter_eq_self]
  intro line hline
  obtain ⟨name, -, rfl⟩ := List.mem_map.mp hline
  rw [List.append_assoc]
  exact List.isPrefixOf_iff_prefix.mpr (List.prefix_append _ _)

/-- Declarations with other words are not found. -/
theorem filter_declared_of_ne {words other : Text}
    (h : ∀ rest, List.isPrefixOf words (other ++ rest) = false) (names : List Text) :
    (names.map fun name => other ++ name ++ "();").filter (fun line => words.isPrefixOf line)
      = [] := by
  rw [List.filter_eq_nil_iff]
  intro line hline
  obtain ⟨name, -, rfl⟩ := List.mem_map.mp hline
  rw [List.append_assoc, h]
  exact Bool.false_ne_true

namespace SourceLayout

/-- **What looks like a declaration in an implementation is in its two lists of declarations.** -/
theorem filter_implementation (layout : SourceLayout) (m : Machine) {words : Text}
    (hwords : words.head? = some 0x65) :
    (layout.implementation m).filter (fun line => words.isPrefixOf line)
      = (m.actions.map Machine.actionDeclaration ++
          m.predicateNames.map Machine.predicateDeclaration).filter
            fun line => words.isPrefixOf line := by
  have hincludes : NoneDeclares layout.includes :=
    .cons (some 0x23) rfl (by decide) (.cons (some 0x23) rfl (by decide) .nil)
  have hvariable : NoneDeclares m.stateVariable :=
    .cons (some 0x2f) rfl (by decide) (.cons (some 0x73) rfl (by decide) .nil)
  have hrest : NoneDeclares ([] :: (m.stateVariable ++ [] ::
      (m.runFunction ++ [] :: m.transitionFunction))) :=
    (hvariable.append (m.noneDeclares_runFunction.append
      m.noneDeclares_transitionFunction.blank).blank).blank
  have hsections : layout.implementation m
      = layout.includes ++ ([[]] ++ (m.actions.map Machine.actionDeclaration ++ ([[]] ++
          (m.predicateNames.map Machine.predicateDeclaration ++ ([] :: (m.stateVariable ++ [] ::
            (m.runFunction ++ [] :: m.transitionFunction))))))) := by
    simp [implementation]
  rw [hsections]
  simp only [List.filter_append, hincludes.filter_eq_nil hwords, hrest.filter_eq_nil hwords,
    NoneDeclares.nil.blank.filter_eq_nil hwords, List.nil_append, List.append_nil]

theorem declaresAs_actions (layout : SourceLayout) (m : Machine) :
    DeclaresAs "extern void " (layout.implementation m) m.actions := by
  have hactions : (m.actions.map Machine.actionDeclaration).filter
      (fun line => (Text.ofString "extern void ").isPrefixOf line) = _ := filter_declared _ _
  have hpredicates : (m.predicateNames.map Machine.predicateDeclaration).filter
      (fun line => (Text.ofString "extern void ").isPrefixOf line) = [] :=
    filter_declared_of_ne (fun _ => rfl) _
  rw [DeclaresAs, layout.filter_implementation m rfl, List.filter_append, hactions, hpredicates,
    List.append_nil]

theorem declaresAs_predicateNames (layout : SourceLayout) (m : Machine) :
    DeclaresAs "extern bool " (layout.implementation m) m.predicateNames := by
  have hactions : (m.actions.map Machine.actionDeclaration).filter
      (fun line => (Text.ofString "extern bool ").isPrefixOf line) = [] :=
    filter_declared_of_ne (fun _ => rfl) _
  have hpredicates : (m.predicateNames.map Machine.predicateDeclaration).filter
      (fun line => (Text.ofString "extern bool ").isPrefixOf line) = _ := filter_declared _ _
  rw [DeclaresAs, layout.filter_implementation m rfl, List.filter_append, hactions, hpredicates,
    List.nil_append]

end SourceLayout

/-- **What is declared is what is used, once each.** For every machine that validation accepts, the
implementation declares as actions the functions that are called to run a state, and as predicates
those that are called in the conditions of the transitions, each once and in the order of the first
calls. A predicate is declared without a negation, whether the conditions ask for it, for its
negation or for both. -/
theorem declared_eq_called (layout : SourceLayout) {m : Machine} (hv : m.violations = []) :
    ∃ source run transition actions predicates,
      parse (layout.implementation m) = some source ∧
      function? source runName = some ([], run) ∧
      function? source transitionName = some ([Machine.nextLocal], transition) ∧
      DeclaresAs "extern void " (layout.implementation m) actions ∧
      FirstUses run.calls actions ∧
      DeclaresAs "extern bool " (layout.implementation m) predicates ∧
      FirstUses (transition.conditions.flatMap Expr.calls) predicates ∧
      (∀ p ∈ predicates, p.head? ≠ some Predicate.negationMark) ∧
      ∀ p, p ∈ predicates ↔
        Expr.operand (.call p) ∈ transition.conditions ∨
        Expr.operand (.negation (.call p)) ∈ transition.conditions := by
  have hm := (Machine.violations_eq_nil_iff _).mp hv
  have hactions : FirstUses m.runBody.calls m.actions := by
    rw [Machine.calls_runBody]
    exact firstUses_eraseDups _
  have hpredicates : FirstUses (m.transitionBody.conditions.flatMap Expr.calls)
      m.predicateNames := by
    rw [← Machine.calls_conditions_transitionBody hm]
    exact firstUses_eraseDups _
  refine ⟨m.program, m.runBody, m.transitionBody, m.actions, m.predicateNames,
    layout.parse_implementation hm, m.function?_program runName,
    m.function?_program transitionName, layout.declaresAs_actions m, hactions,
    layout.declaresAs_predicateNames m, hpredicates, fun p hp hmark => ?_, fun p => ?_⟩
  · have hpart := (hm.isUsable_of_mem_predicateNames hp).mem_part (List.mem_of_head? hmark)
    exact absurd hpart (by decide)
  · rw [hpredicates.mem_iff, Machine.mem_calls_conditions]

theorem violations_lamp : lamp.violations = [] := by decide

/-- The sources of the light, in which two states share an action and one predicate is asked for
both ways. -/
theorem lamp_declared :
    lamp.violations = [] ∧
    DeclaresAs "extern void " (SourceLayout.implementation {} lamp) ["shine", "glow"] ∧
    DeclaresAs "extern bool " (SourceLayout.implementation {} lamp) ["pressed", "powered"] ∧
    ∃ source run transition actions predicates,
      parse (SourceLayout.implementation {} lamp) = some source ∧
      function? source runName = some ([], run) ∧
      function? source transitionName = some ([Machine.nextLocal], transition) ∧
      DeclaresAs "extern void " (SourceLayout.implementation {} lamp) actions ∧
      FirstUses run.calls actions ∧
      DeclaresAs "extern bool " (SourceLayout.implementation {} lamp) predicates ∧
      FirstUses (transition.conditions.flatMap Expr.calls) predicates ∧
      (∀ p ∈ predicates, p.head? ≠ some Predicate.negationMark) ∧
      ∀ p, p ∈ predicates ↔
        Expr.operand (.call p) ∈ transition.conditions ∨
        Expr.operand (.negation (.call p)) ∈ transition.conditions := by
  have hactions : lamp.actions = [Text.ofString "shine", "glow"] := by decide
  have hpredicates : lamp.predicateNames = [Text.ofString "pressed", "powered"] := by decide
  refine ⟨violations_lamp, ?_, ?_, declared_eq_called {} violations_lamp⟩
  · rw [← hactions]
    exact SourceLayout.declaresAs_actions {} lamp
  · rw [← hpredicates]
    exact SourceLayout.declaresAs_predicateNames {} lamp

end StateForge
