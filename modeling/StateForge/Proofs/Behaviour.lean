import StateForge.Proofs.Acceptance

/-!
# How a machine behaves

A machine is asked to do two things, in any order and as often as the caller likes: to run, which
calls the action of the current state, and to move on, which looks for the first transition that is
taken. What can be seen of it from outside is a list of events: the actions that are called, the
predicates that are asked with the answers they give, and the changes of the current state.

Predicates belong to the world. One that is asked twice may answer differently, and an answer may
depend on everything that has happened before, so a `World` is a function of the whole history.

The meaning that is given here to a machine speaks of its states and transitions only. That
generated code does the same is the subject of `StateForge.Proofs.Simulation`.
-/

set_option autoImplicit false

namespace StateForge

/-- Something that can be seen from outside. -/
inductive Event where
  /-- A function was called that gives nothing back. -/
  | called (f : Text)
  /-- A predicate was asked. -/
  | asked (p : Text) (answer : Bool)
  /-- A variable got a value. -/
  | stored (x value : Text)
deriving DecidableEq

/-- What a predicate answers after a history. -/
abbrev World := List Event → Text → Bool

/-- What a machine is asked to do. -/
inductive Request where
  | run
  | transition
deriving DecidableEq

/-- A machine at work: its current state, and what has happened so far. -/
structure Configuration where
  current : Text
  trace : List Event
deriving DecidableEq

/-- The variable that holds the current state. -/
def currentVariable : Text := "state"

/-- Does the condition hold, given the answer of its function? -/
def Predicate.holds (p : Predicate) (answer : Bool) : Bool :=
  if p.negated then !answer else answer

/-- The target of the first transition that is taken, and the history after the predicates up to
there were asked, in order. Nothing is asked after an unconditional transition. -/
def Transition.firstTaken (world : World) (trace : List Event) :
    List Transition → Option Text × List Event
  | [] => (none, trace)
  | t :: rest =>
    if t.isUnconditional then (some t.target, trace)
    else
      let answer := world trace t.predicate.name
      let trace := trace ++ [.asked t.predicate.name answer]
      if t.predicate.holds answer then (some t.target, trace) else firstTaken world trace rest

/-- The configuration after a target was chosen. Staying in a state writes nothing. -/
def Configuration.moveTo (c : Configuration) (target : Text) : Configuration :=
  if target = c.current then c
  else ⟨target, c.trace ++ [.stored currentVariable target]⟩

namespace Machine

/-- The configuration before anything has happened. -/
def initial (m : Machine) : Configuration :=
  ⟨m.start, []⟩

/-- What the machine does in a given state. -/
def reactIn (world : World) (c : Configuration) (st : State) : Request → Configuration
  | .run => { c with trace := c.trace ++ [.called st.action] }
  | .transition =>
    let chosen := Transition.firstTaken world c.trace st.transitions
    let asked : Configuration := { c with trace := chosen.2 }
    match chosen.1 with
    | some target => asked.moveTo target
    | none => asked

/-- What the machine does when it is asked something. -/
def react (m : Machine) (world : World) (c : Configuration) (r : Request) : Configuration :=
  match m.lookup? c.current with
  | some st => reactIn world c st r
  | none => c

/-- What the machine does when it is asked several things in turn. -/
def behave (m : Machine) (world : World) (rs : List Request) : Configuration :=
  rs.foldl (m.react world) m.initial

/-! ## The current state is always declared -/

theorem lookup?_eq_some {m : Machine} {name : Text} {st : State} (h : m.lookup? name = some st) :
    st ∈ m.states ∧ st.name = name :=
  ⟨List.mem_of_find?_eq_some h, by simpa using List.find?_some h⟩

theorem exists_lookup? {m : Machine} {name : Text} (h : name ∈ m.stateNames) :
    ∃ st, m.lookup? name = some st := by
  rw [stateNames, List.mem_map] at h
  obtain ⟨st, hst, hname⟩ := h
  rw [← Option.isSome_iff_exists, lookup?, List.find?_isSome]
  exact ⟨st, hst, by simp [hname]⟩

/-- What is chosen is the target of one of the transitions. -/
theorem firstTaken_target_mem {world : World} {trace : List Event} {ts : List Transition}
    {target : Text} (h : (Transition.firstTaken world trace ts).1 = some target) :
    ∃ t ∈ ts, t.target = target := by
  induction ts generalizing trace with
  | nil => exact absurd h (by simp [Transition.firstTaken])
  | cons t rest ih =>
    rw [Transition.firstTaken] at h
    split at h
    · exact ⟨t, by simp, by simpa using h⟩
    · simp only at h
      split at h
      · exact ⟨t, by simp, by simpa using h⟩
      · obtain ⟨s, hs, hst⟩ := ih h
        exact ⟨s, List.mem_cons_of_mem _ hs, hst⟩

/-- One request leads from a declared state to a declared state. -/
theorem current_react_mem {m : Machine} (hm : m.WellFormed) (world : World) {c : Configuration}
    (hc : c.current ∈ m.stateNames) (r : Request) : (m.react world c r).current ∈ m.stateNames := by
  rw [react]
  split
  · rename_i st hst
    cases r with
    | run => exact hc
    | transition =>
      simp only [reactIn]
      split
      · rename_i target htarget
        obtain ⟨t, ht, rfl⟩ := firstTaken_target_mem htarget
        rw [Configuration.moveTo]
        split
        · exact hc
        · exact hm.target st (lookup?_eq_some hst).1 t ht
      · exact hc
  · exact hc

/-- **The current state is always declared**, after any sequence of requests. -/
theorem current_behave_mem {m : Machine} (hm : m.WellFormed) (world : World) (rs : List Request) :
    (m.behave world rs).current ∈ m.stateNames := by
  have hrun : ∀ (rs : List Request) (c : Configuration), c.current ∈ m.stateNames →
      (rs.foldl (m.react world) c).current ∈ m.stateNames := by
    intro rs
    induction rs with
    | nil => exact fun _ hc => hc
    | cons r rest ih => exact fun c hc => ih _ (current_react_mem hm world hc r)
  exact hrun rs m.initial hm.start

end Machine

end StateForge
