import StateForge.Proofs.PredicateText
import StateForge.Proofs.Validation

/-!
# Which documents describe a machine

Building a machine from a document stops at the first thing that is wrong. The tests are spread over
the constructors of transitions, states and machines, which are called at different depths, so which
of several flaws is reported depends on the order of the calls. Here is that order, said without
them.

* `Document.Place` is a place in a document where one thing can be wrong, and `Document.Flaw` says
  what is wrong there and how it is reported.
* `IsFirst` picks out the flaw that comes before all others, and `Finds` says of an outcome that it
  tells the first flaw, or that there is none. It is put together like the outcome: if one part
  comes after another, so do its flaws (`Finds.bind`).
* `Document.Complete` says of a document, field by field, that nothing is wrong with it, and
  `Document.Mirrors` what a machine has in common with the document it was built from.
-/

set_option autoImplicit false

namespace StateForge

/-! ## What can be wrong -/

/-- A negation of nothing: without the white space around it, the mark and at most more white
space. -/
def Text.NegatesNothing (s : Text) : Prop :=
  ∃ rest : Text, s.trim = Predicate.negationMark :: rest ∧ rest.isBlank = true

/-- A place in a document where one thing can be wrong: states and transitions are given by their
indices. -/
inductive Document.Place where
  | target (state transition : Nat)
  | predicate (state transition : Nat)
  | name (state : Nat)
  | run (state : Nat)
  | start
  /-- Has an earlier state the same name? -/
  | repetition (state : Nat)

namespace Document.Place

/-- The place in a list of lists, by which places are ordered. -/
def position : Place → List Nat
  | target i j => [0, i, 0, j, 0]
  | predicate i j => [0, i, 0, j, 1]
  | name i => [0, i, 1]
  | run i => [0, i, 2]
  | start => [1]
  | repetition i => [2, i]

/-- The states come in order: first the transitions of a state, in order and each with its target
before its predicate, then its name, then its action. After all states comes the start, and then the
names are compared. -/
def Before (p q : Place) : Prop :=
  p.position < q.position

end Document.Place

open Document (Place)

/-- What is wrong with the transition at `j` of the state at `i`. -/
inductive TransitionDocument.Flaw (i j : Nat) (d : TransitionDocument) : Place → BuildError → Prop
  | target (h : d.state = []) : Flaw i j d (.target i j) (.transition i j .emptyTarget)
  | predicate (h : d.predicate.NegatesNothing) :
      Flaw i j d (.predicate i j) (.transition i j (.emptyPredicate d.predicate.trim))

/-- What is wrong with the state at `i`, apart from its transitions. -/
inductive StateDocument.OwnFlaw (i : Nat) (d : StateDocument) : Place → BuildError → Prop
  | name (h : d.name = []) : OwnFlaw i d (.name i) (.state i .emptyStateName)
  | run (h : d.run = []) : OwnFlaw i d (.run i) (.state i (.emptyAction d.name))

/-- What is wrong with the state at `i`. -/
inductive StateDocument.Flaw (i : Nat) (d : StateDocument) : Place → BuildError → Prop
  | transition {j : Nat} {t : TransitionDocument} {p : Place} {e : BuildError}
      (ht : d.transitions[j]? = some t) (h : t.Flaw i j p e) : Flaw i d p e
  | own {p : Place} {e : BuildError} (h : d.OwnFlaw i p e) : Flaw i d p e

/-- The names of the states, in order. -/
def Document.stateNames (d : Document) : List Text :=
  d.states.map StateDocument.name

/-- What is wrong with a document, apart from its states. -/
inductive Document.OwnFlaw (d : Document) : Place → BuildError → Prop
  | start (h : d.start = []) : OwnFlaw d .start (.machine .emptyStart)
  | repetition {k : Nat} {name : Text} (hname : d.stateNames[k]? = some name)
      (hearlier : name ∈ d.stateNames.take k) :
      OwnFlaw d (.repetition k) (.machine (.duplicateState name))

/-- What is wrong with a document, and where. -/
inductive Document.Flaw (d : Document) : Place → BuildError → Prop
  | state {i : Nat} {st : StateDocument} {p : Place} {e : BuildError}
      (hst : d.states[i]? = some st) (h : st.Flaw i p e) : Flaw d p e
  | own {p : Place} {e : BuildError} (h : d.OwnFlaw p e) : Flaw d p e

/-- Nothing is wrong with a document. -/
structure Document.Complete (d : Document) : Prop where
  target : ∀ st ∈ d.states, ∀ t ∈ st.transitions, t.state ≠ []
  predicate : ∀ st ∈ d.states, ∀ t ∈ st.transitions, ¬ t.predicate.NegatesNothing
  name : ∀ st ∈ d.states, st.name ≠ []
  run : ∀ st ∈ d.states, st.run ≠ []
  start : d.start ≠ []
  distinct : d.stateNames.Nodup

/-! ## What a machine has in common with its document -/

/-- The transition is the one that is described: its target is the same, and its predicate is what
is read from the text. -/
structure TransitionDocument.Mirrors (d : TransitionDocument) (t : Transition) : Prop where
  target : t.target = d.state
  predicate : Predicate.parse d.predicate = .ok t.predicate

/-- The state is the one that is described, with as many transitions in the same order. -/
structure StateDocument.Mirrors (d : StateDocument) (st : State) : Prop where
  name : st.name = d.name
  action : st.action = d.run
  transitions : List.Forall₂ TransitionDocument.Mirrors d.transitions st.transitions

/-- The machine is the one that is described, with as many states in the same order. -/
structure Document.Mirrors (d : Document) (m : Machine) : Prop where
  start : m.start = d.start
  states : List.Forall₂ StateDocument.Mirrors d.states m.states

theorem StateDocument.Describes.mirrors {d : StateDocument} {st : State} (h : d.Describes st) :
    d.Mirrors st := by
  obtain ⟨hts, hmake⟩ := h
  obtain ⟨-, -, hst⟩ := State.make_eq_ok_iff.mp hmake
  refine ⟨by rw [hst], by rw [hst], hts.imp fun td t ht => ?_⟩
  obtain ⟨-, hparse, htarget⟩ := Transition.make_eq_ok_iff.mp ht
  exact ⟨htarget, hparse⟩

theorem StateDocument.mirrors_of_buildAll {i : Nat} {ds : List StateDocument} {states : List State}
    (h : buildAll i ds = .ok states) : List.Forall₂ Mirrors ds states :=
  (buildAll_eq_ok_iff.mp h).imp fun _ _ hdescribes => hdescribes.mirrors

/-- **A machine that was built mirrors its document.** -/
theorem Document.mirrors_of_build {d : Document} {m : Machine} (h : d.build = .ok m) :
    d.Mirrors m := by
  rw [build] at h
  obtain ⟨states, hstates, h⟩ := exists_of_bind_eq_ok h
  obtain ⟨-, rfl⟩ := Machine.make_eq_ok (eq_ok_of_mapError_eq_ok h)
  exact ⟨rfl, StateDocument.mirrors_of_buildAll hstates⟩

/-! ## The first flaw -/

/-- The error reports a flaw, and all other flaws come after it. -/
def IsFirst (flaw : Place → BuildError → Prop) (e : BuildError) : Prop :=
  ∃ p, flaw p e ∧ ∀ q e', flaw q e' → q = p ∧ e' = e ∨ p.Before q

/-- The outcome tells the first flaw, or there is none. -/
def Finds {α : Type} (flaw : Place → BuildError → Prop) : Except BuildError α → Prop
  | .ok _ => ∀ p e, ¬ flaw p e
  | .error e => IsFirst flaw e

/-- There is at most one first flaw. -/
theorem IsFirst.unique {flaw : Place → BuildError → Prop} {e e' : BuildError}
    (h : IsFirst flaw e) (h' : IsFirst flaw e') : e = e' := by
  obtain ⟨p, hp, hfirst⟩ := h
  obtain ⟨q, hq, hfirst'⟩ := h'
  rcases hfirst q e' hq with ⟨-, rfl⟩ | hpq
  · rfl
  · rcases hfirst' p e hp with ⟨-, rfl⟩ | hqp
    · rfl
    · exact absurd (List.lt_trans hpq hqp) (List.lt_irrefl _)

namespace Finds

variable {α β : Type} {flaw flaw' : Place → BuildError → Prop} {x : Except BuildError α}

theorem congr (h : Finds flaw x) (hiff : ∀ p e, flaw p e ↔ flaw' p e) : Finds flaw' x := by
  have heq : flaw = flaw' := funext fun p => funext fun e => propext (hiff p e)
  exact heq ▸ h

/-- A part that comes after another is only looked at if nothing is wrong before. -/
theorem bind {f : α → Except BuildError β} (hx : Finds flaw x)
    (hf : ∀ a, x = .ok a → Finds flaw' (f a))
    (hbefore : ∀ p e q e', flaw p e → flaw' q e' → p.Before q) :
    Finds (fun p e => flaw p e ∨ flaw' p e) (x >>= f) := by
  cases x with
  | error e =>
    obtain ⟨p, hp, hfirst⟩ := hx
    refine ⟨p, .inl hp, fun q e' hq => ?_⟩
    rcases hq with hq | hq
    · exact hfirst q e' hq
    · exact .inr (hbefore p e q e' hp hq)
  | ok a =>
    exact (hf a rfl).congr fun p e => ⟨.inr, fun h => h.resolve_left (hx p e)⟩

/-- What is done with a result has no flaws of its own. -/
theorem map (h : Finds flaw x) (f : α → β) : Finds flaw (x >>= fun a => pure (f a)) := by
  cases x with
  | error e => exact h
  | ok a => exact h

end Finds

/-! ## Along the document -/

theorem Predicate.parse_eq_error_iff {s : Text} {e : ModelError} :
    parse s = .error e ↔ s.NegatesNothing ∧ e = .emptyPredicate s.trim := by
  rw [parse, Text.NegatesNothing]
  cases htrim : s.trim with
  | nil => simp
  | cons b rest =>
    by_cases hmark : b = negationMark
    · by_cases hblank : Text.isBlank rest = true
      · simp only [hmark, Text.trim_eq_nil_iff.mpr hblank, if_true, Except.error.injEq,
          List.cons.injEq, true_and, exists_eq_left', hblank, eq_comm]
      · simp [hmark, hblank, Text.trim_eq_nil_iff]
    · simp [hmark]

namespace TransitionDocument

variable (i j : Nat)

theorem finds_make (d : TransitionDocument) :
    Finds (d.Flaw i j) ((Transition.make d.predicate d.state).mapError (.transition i j)) := by
  rw [Transition.make]
  by_cases htarget : d.state = []
  · rw [if_pos htarget]
    refine ⟨_, .target htarget, fun q e' hq => ?_⟩
    cases hq with
    | target => exact .inl ⟨rfl, rfl⟩
    | predicate => exact .inr (by simp [Place.Before, Place.position, List.cons_lt_cons_iff])
  · rw [if_neg htarget]
    cases hparse : Predicate.parse d.predicate with
    | error cause =>
      obtain ⟨hnothing, rfl⟩ := Predicate.parse_eq_error_iff.mp hparse
      refine ⟨_, .predicate hnothing, fun q e' hq => ?_⟩
      cases hq with
      | target h => exact absurd h htarget
      | predicate => exact .inl ⟨rfl, rfl⟩
    | ok p =>
      intro q e' hq
      cases hq with
      | target h => exact htarget h
      | predicate h =>
        have herror := Predicate.parse_eq_error_iff.mpr ⟨h, rfl⟩
        exact absurd (hparse.symm.trans herror) (by simp)

/-- Everything that is wrong with a transition is wrong at that transition. -/
theorem Flaw.place {i j : Nat} {d : TransitionDocument} {p : Place} {e : BuildError}
    (h : d.Flaw i j p e) : ∃ n, p.position = [0, i, 0, j, n] := by
  cases h with
  | target => exact ⟨0, rfl⟩
  | predicate => exact ⟨1, rfl⟩

theorem finds_buildAll (ds : List TransitionDocument) :
    Finds (fun p e => ∃ k, ∃ d : TransitionDocument, ds[k]? = some d ∧ d.Flaw i (j + k) p e)
      (buildAll i j ds) := by
  induction ds generalizing j with
  | nil => exact fun p e h => by simp at h
  | cons d ds ih =>
    rw [buildAll]
    refine ((finds_make i j d).bind (fun t _ => (ih (j + 1)).map _) ?_).congr fun p e => ?_
    · rintro p e q e' hp ⟨k, d', -, hq⟩
      obtain ⟨n, hn⟩ := hp.place
      obtain ⟨n', hn'⟩ := hq.place
      have hlt : j < j + 1 + k := by omega
      rw [Place.Before, hn, hn']
      simp [List.cons_lt_cons_iff, hlt]
    · rw [exists_getElem?_cons]
      simp only [Nat.add_zero, Nat.add_assoc, Nat.add_comm 1]

end TransitionDocument

namespace StateDocument

variable (i : Nat)

theorem finds_make (d : StateDocument) (ts : List Transition) :
    Finds (d.OwnFlaw i) ((State.make d.name d.run ts).mapError (.state i)) := by
  rw [State.make]
  by_cases hname : d.name = []
  · rw [if_pos hname]
    refine ⟨_, .name hname, fun q e' hq => ?_⟩
    cases hq with
    | name => exact .inl ⟨rfl, rfl⟩
    | run => exact .inr (by simp [Place.Before, Place.position, List.cons_lt_cons_iff])
  · rw [if_neg hname]
    by_cases hrun : d.run = []
    · rw [if_pos hrun]
      refine ⟨_, .run hrun, fun q e' hq => ?_⟩
      cases hq with
      | name h => exact absurd h hname
      | run => exact .inl ⟨rfl, rfl⟩
    · rw [if_neg hrun]
      intro q e' hq
      cases hq with
      | name h => exact hname h
      | run h => exact hrun h

theorem finds_build (d : StateDocument) : Finds (d.Flaw i) (d.build i) := by
  rw [build]
  refine ((TransitionDocument.finds_buildAll i 0 d.transitions).bind
    (fun ts _ => finds_make i d ts) ?_).congr fun p e => ⟨?_, ?_⟩
  · rintro p e q e' ⟨k, t, -, hp⟩ hq
    obtain ⟨n, hn⟩ := hp.place
    rw [Place.Before, hn]
    cases hq with
    | name => simp [Place.position, List.cons_lt_cons_iff]
    | run => simp [Place.position, List.cons_lt_cons_iff]
  · rintro (⟨k, t, ht, h⟩ | h)
    · exact .transition ht (Nat.zero_add k ▸ h)
    · exact .own h
  · rintro (⟨ht, h⟩ | h)
    · exact .inl ⟨_, _, ht, by rwa [Nat.zero_add]⟩
    · exact .inr h

/-- Everything that is wrong with a state is wrong at that state. -/
theorem Flaw.place {i : Nat} {d : StateDocument} {p : Place} {e : BuildError}
    (h : d.Flaw i p e) : ∃ rest, p.position = 0 :: i :: rest := by
  cases h with
  | transition _ h =>
    obtain ⟨n, hn⟩ := h.place
    exact ⟨_, hn⟩
  | own h =>
    cases h with
    | name => exact ⟨[1], rfl⟩
    | run => exact ⟨[2], rfl⟩

theorem finds_buildAll (ds : List StateDocument) :
    Finds (fun p e => ∃ k, ∃ d : StateDocument, ds[k]? = some d ∧ d.Flaw (i + k) p e)
      (buildAll i ds) := by
  induction ds generalizing i with
  | nil => exact fun p e h => by simp at h
  | cons d ds ih =>
    rw [buildAll]
    refine ((finds_build i d).bind (fun t _ => (ih (i + 1)).map _) ?_).congr fun p e => ?_
    · rintro p e q e' hp ⟨k, d', -, hq⟩
      obtain ⟨rest, hrest⟩ := hp.place
      obtain ⟨rest', hrest'⟩ := hq.place
      have hlt : i < i + 1 + k := by omega
      rw [Place.Before, hrest, hrest']
      simp [List.cons_lt_cons_iff, hlt]
    · rw [exists_getElem?_cons]
      simp only [Nat.add_zero, Nat.add_assoc, Nat.add_comm 1]

end StateDocument

/-- The name that is found occurs before, and no name before it does. -/
theorem Machine.firstRepeated?_eq_some {names seen : List Text} {name : Text}
    (h : firstRepeated? seen names = some name) :
    ∃ k, names[k]? = some name ∧ (name ∈ seen ∨ name ∈ names.take k) ∧
      ∀ k' < k, ∀ n, names[k']? = some n → n ∉ seen ∧ n ∉ names.take k' := by
  induction names generalizing seen with
  | nil => exact absurd h (by simp [firstRepeated?])
  | cons first rest ih =>
    rw [firstRepeated?] at h
    split at h
    · rename_i hseen
      cases h
      exact ⟨0, rfl, .inl hseen, fun k' hk' => absurd hk' (Nat.not_lt_zero _)⟩
    · rename_i hseen
      obtain ⟨k, hk, hearlier, hbefore⟩ := ih h
      refine ⟨k + 1, hk, ?_, fun k' hk' n hn => ?_⟩
      · rw [List.take_succ_cons, List.mem_cons]
        rcases hearlier with hearlier | hearlier
        · rcases List.mem_cons.mp hearlier with rfl | hearlier
          · exact .inr (.inl rfl)
          · exact .inl hearlier
        · exact .inr (.inr hearlier)
      · cases k' with
        | zero =>
          cases hn
          exact ⟨hseen, by simp⟩
        | succ k' =>
          obtain ⟨hn', htake⟩ := hbefore k' (Nat.lt_of_succ_lt_succ hk') n hn
          rw [List.mem_cons, not_or] at hn'
          rw [List.take_succ_cons, List.mem_cons, not_or]
          exact ⟨hn'.2, hn'.1, htake⟩

/-- No name occurs before itself. -/
theorem Machine.nodup_iff_take {names : List Text} :
    names.Nodup ↔ ∀ k name, names[k]? = some name → name ∉ names.take k := by
  constructor
  · intro hnodup k name hname hearlier
    have hlater : name ∈ names.drop k :=
      List.mem_of_getElem? (i := 0) (by rw [List.getElem?_drop]; exact hname)
    exact List.disjoint_take_drop hnodup le_rfl hearlier hlater
  · intro h
    cases hrepeated : firstRepeated? [] names with
    | none => exact (nodup_of_firstRepeated?_eq_none hrepeated).1
    | some name =>
      obtain ⟨k, hk, hearlier, -⟩ := firstRepeated?_eq_some hrepeated
      exact absurd (hearlier.resolve_left (by simp)) (h k name hk)

namespace Document

theorem finds_make (d : Document) {states : List State}
    (hnames : states.map State.name = d.stateNames) :
    Finds d.OwnFlaw ((Machine.make d.start states).mapError .machine) := by
  rw [Machine.make, hnames]
  by_cases hstart : d.start = []
  · rw [if_pos hstart]
    refine ⟨_, .start hstart, fun q e' hq => ?_⟩
    cases hq with
    | start => exact .inl ⟨rfl, rfl⟩
    | repetition => exact .inr (by simp [Place.Before, Place.position, List.cons_lt_cons_iff])
  · rw [if_neg hstart]
    cases hrepeated : Machine.firstRepeated? [] d.stateNames with
    | some name =>
      obtain ⟨k, hk, hearlier, hbefore⟩ := Machine.firstRepeated?_eq_some hrepeated
      refine ⟨_, .repetition hk (hearlier.resolve_left (by simp)), fun q e' hq => ?_⟩
      cases hq with
      | start h => exact absurd h hstart
      | @repetition k' name' hname' hearlier' =>
        rcases Nat.lt_trichotomy k k' with hlt | rfl | hlt
        · exact .inr (by simp [Place.Before, Place.position, List.cons_lt_cons_iff, hlt])
        · cases hname'.symm.trans hk
          exact .inl ⟨rfl, rfl⟩
        · exact absurd hearlier' (hbefore k' hlt name' hname').2
    | none =>
      have hnodup := (Machine.nodup_of_firstRepeated?_eq_none hrepeated).1
      intro q e' hq
      cases hq with
      | start h => exact hstart h
      | repetition hname hearlier =>
        exact Machine.nodup_iff_take.mp hnodup _ _ hname hearlier

/-- **Building tells the first flaw of a document**, or there is none. -/
theorem finds_build (d : Document) : Finds d.Flaw d.build := by
  rw [build]
  refine ((StateDocument.finds_buildAll 0 d.states).bind (fun states hstates => d.finds_make ?_)
    ?_).congr fun p e => ⟨?_, ?_⟩
  · rw [stateNames, ← List.forall₂_eq_eq_eq, List.forall₂_map_left_iff,
      List.forall₂_map_right_iff]
    exact ((StateDocument.mirrors_of_buildAll hstates).imp fun _ _ h => h.name).flip
  · rintro p e q e' ⟨k, st, -, hp⟩ hq
    obtain ⟨rest, hrest⟩ := hp.place
    rw [Place.Before, hrest]
    cases hq with
    | start => simp [Place.position, List.cons_lt_cons_iff]
    | repetition => simp [Place.position, List.cons_lt_cons_iff]
  · rintro (⟨k, st, hst, h⟩ | h)
    · exact .state hst (Nat.zero_add k ▸ h)
    · exact .own h
  · rintro (⟨hst, h⟩ | h)
    · exact .inl ⟨_, _, hst, by rwa [Nat.zero_add]⟩
    · exact .inr h

/-- A document is complete if it has no flaw anywhere. -/
theorem complete_iff {d : Document} : d.Complete ↔ ∀ p e, ¬ d.Flaw p e := by
  constructor
  · rintro hd p e (⟨hst, ⟨ht, h⟩ | h⟩ | h)
    · have hst := List.mem_of_getElem? hst
      have ht := List.mem_of_getElem? ht
      cases h with
      | target h => exact hd.target _ hst _ ht h
      | predicate h => exact hd.predicate _ hst _ ht h
    · have hst := List.mem_of_getElem? hst
      cases h with
      | name h => exact hd.name _ hst h
      | run h => exact hd.run _ hst h
    · cases h with
      | start h => exact hd.start h
      | repetition hname hearlier => exact Machine.nodup_iff_take.mp hd.distinct _ _ hname hearlier
  · intro h
    refine
      { target := fun st hst t ht hnil => ?_
        predicate := fun st hst t ht hnothing => ?_
        name := fun st hst hnil => ?_
        run := fun st hst hnil => ?_
        start := fun hnil => h _ _ (.own (.start hnil))
        distinct := Machine.nodup_iff_take.mpr fun k name hname hearlier =>
          h _ _ (.own (.repetition hname hearlier)) }
    · obtain ⟨i, hi⟩ := List.mem_iff_getElem?.mp hst
      obtain ⟨j, hj⟩ := List.mem_iff_getElem?.mp ht
      exact h _ _ (.state hi (.transition hj (.target hnil)))
    · obtain ⟨i, hi⟩ := List.mem_iff_getElem?.mp hst
      obtain ⟨j, hj⟩ := List.mem_iff_getElem?.mp ht
      exact h _ _ (.state hi (.transition hj (.predicate hnothing)))
    · obtain ⟨i, hi⟩ := List.mem_iff_getElem?.mp hst
      exact h _ _ (.state hi (.own (.name hnil)))
    · obtain ⟨i, hi⟩ := List.mem_iff_getElem?.mp hst
      exact h _ _ (.state hi (.own (.run hnil)))

/-- An error is reported exactly if it is the first flaw. -/
theorem build_eq_error_iff {d : Document} {e : BuildError} :
    d.build = .error e ↔ IsFirst d.Flaw e := by
  have hfinds := d.finds_build
  cases hbuild : d.build with
  | error e' =>
    rw [hbuild] at hfinds
    rw [Except.error.injEq]
    constructor
    · rintro rfl
      exact hfinds
    · exact fun h => IsFirst.unique hfinds h
  | ok m =>
    rw [hbuild] at hfinds
    constructor
    · intro h
      exact absurd h (by simp)
    · rintro ⟨p, hp, -⟩
      exact absurd hp (hfinds p e)

/-- A document is built exactly if it is complete. -/
theorem exists_build_iff {d : Document} : (∃ m, d.build = .ok m) ↔ d.Complete := by
  have hfinds := d.finds_build
  rw [complete_iff]
  constructor
  · rintro ⟨m, hm⟩
    rwa [hm] at hfinds
  · intro hnone
    cases hbuild : d.build with
    | ok m => exact ⟨m, rfl⟩
    | error e =>
      obtain ⟨p, hp, -⟩ := build_eq_error_iff.mp hbuild
      exact absurd hp (hnone p e)

end Document

/-- **Building is exact.** A machine is built exactly from the documents that are complete, and it
mirrors its document. From all others comes the error that reports the first flaw. Every error is
one of a malformed document and a problem of exactly one kind. -/
theorem build_exact (d : Document) :
    ((∃ m, d.build = .ok m) ↔ d.Complete) ∧
    (∀ m, d.build = .ok m → d.Mirrors m) ∧
    (∀ e, d.build = .error e ↔ IsFirst d.Flaw e) ∧
    ∀ e, d.build = .error e →
      e.isOf .malformedDocument = true ∧ ∃! kind, e.isOf (.model kind) = true := by
  refine ⟨Document.exists_build_iff, fun m => Document.mirrors_of_build,
    fun e => Document.build_eq_error_iff, fun e _ => ⟨rfl, e.cause.kind, ?_, fun kind hkind => ?_⟩⟩
  · exact beq_self_eq_true _
  · exact (eq_of_beq hkind).symm

/-- A document with a flaw of every kind: in its second state a target is missing and then a
predicate is no predicate, the third state has neither name nor action, there is no start, and the
last state has the name of the first. -/
def flawedDocument : Document :=
  ⟨"", [⟨"A", "act", []⟩, ⟨"B", "act", [⟨"p", "A"⟩, ⟨"! ", ""⟩]⟩, ⟨"", "", []⟩, ⟨"A", "act", []⟩]⟩

/-- The missing target is reported. -/
theorem flawedDocument_first :
    flawedDocument.build = .error (.transition 1 1 .emptyTarget) ∧
      IsFirst flawedDocument.Flaw (.transition 1 1 .emptyTarget) ∧ ¬ flawedDocument.Complete := by
  obtain ⟨hcomplete, -, hfirst, -⟩ := build_exact flawedDocument
  have hbuild : flawedDocument.build = .error (.transition 1 1 .emptyTarget) := by
    decide +kernel
  refine ⟨hbuild, (hfirst _).mp hbuild, fun hd => ?_⟩
  obtain ⟨m, hm⟩ := hcomplete.mpr hd
  exact absurd (hm.symm.trans hbuild) (by simp)

end StateForge
