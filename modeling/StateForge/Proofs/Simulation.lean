import StateForge.Proofs.NameClash

/-!
# Generated code does what its machine does

The sources of a machine, read as a program of the C fragment and called from outside, leave the
same events behind as the machine itself, call by call, for every world.

The argument goes from the inside out.

* A chain of conditions asks what `Transition.firstTaken` asks and leaves its target in the local
  variable (`exec?_code`). Here the two programs are taken apart transition by transition.
* A `switch` reaches the case of the current state, whatever stands in front of it, and its `break`
  keeps what follows from running (`exec?_switch`).
* One call is one request (`call?_function`), and a sequence of calls is a sequence of requests
  (`execute?_eq_behave`).

Names enter in one place: what an identifier means when it is looked up. `Machine.NamesApart` is
what makes each look-up come out as intended.
-/

set_option autoImplicit false

namespace StateForge

open Fragment

/-! ## Configurations as memories -/

namespace Configuration

/-- The memory of a program between two calls. -/
def memory (c : Configuration) : Memory :=
  ⟨[(currentVariable, c.current)], [], c.trace⟩

/-- The memory within the function that moves to the next state. -/
def within (c : Configuration) (next : Text) : Memory :=
  ⟨[(currentVariable, c.current)], [(nextVariable, next)], c.trace⟩

/-- The configuration after an event that does not concern the current state. -/
def after (c : Configuration) (e : Event) : Configuration :=
  { c with trace := c.trace ++ [e] }

variable (c : Configuration) (next : Text)

@[simp] theorem record_memory (e : Event) : c.memory.record e = (c.after e).memory := rfl

@[simp] theorem record_within (e : Event) :
    (c.within next).record e = (c.after e).within next := rfl

@[simp] theorem trace_memory : c.memory.trace = c.trace := rfl

@[simp] theorem trace_within : (c.within next).trace = c.trace := rfl

@[simp] theorem read?_memory_current : c.memory.read? currentVariable = some c.current := rfl

@[simp] theorem read?_within_current : (c.within next).read? currentVariable = some c.current := rfl

@[simp] theorem read?_within_next : (c.within next).read? nextVariable = some next := rfl

theorem read?_memory {x : Text} (hx : x ≠ currentVariable) : c.memory.read? x = none := by
  simp [memory, Memory.read?, hx]

theorem read?_within {x : Text} (hx : x ≠ currentVariable) (hx' : x ≠ nextVariable) :
    (c.within next).read? x = none := by
  simp [within, Memory.read?, hx, hx']

@[simp] theorem write?_within_next (value : Text) :
    (c.within next).write? nextVariable value = some (c.within value) := rfl

@[simp] theorem write?_within_current (value : Text) :
    (c.within next).write? currentVariable value
      = some ((Configuration.mk value (c.trace ++ [.stored currentVariable value])).within next) :=
  rfl

end Configuration

/-! ## What the declarations say -/

namespace Machine

/-- The program that the two sources of a machine make together. -/
def sources (m : Machine) : List Decl :=
  m.interface ++ m.program

@[simp] theorem enumerators_sources (m : Machine) :
    Fragment.enumerators m.sources = m.stateNames := by
  simp [Fragment.enumerators, sources, interface, program, definitions]

@[simp] theorem tags_sources (m : Machine) : tags m.sources = [stateTag] := by
  simp [tags, sources, interface, program, definitions]

theorem function?_sources (m : Machine) (f : Text) :
    function? m.sources f
      = if f = runName then some ([], m.runBody)
        else if f = transitionName then some ([nextLocal], m.transitionBody) else none := by
  simp [function?, sources, interface, program, definitions]
  grind

/-- The variable of an implementation. -/
theorem globals_program (m : Machine) :
    globals m.program = [(stateTag, currentVariable, m.start)] := by
  have hnone : ∀ names : List Text,
      names.filterMap (fun _ => (none : Option (Text × Text × Text))) = [] :=
    fun _ => List.filterMap_eq_nil_iff.mpr fun _ _ => rfl
  simp [globals, program, definitions, hnone]

/-- The program starts as the machine does. -/
theorem initial?_sources {m : Machine} (hm : m.WellFormed) :
    initial? m.sources = some m.initial.memory := by
  have hglobals : globals m.sources = globals m.program := by
    simp [globals, sources, interface]
  rw [initial?, hglobals, globals_program]
  simp [hm.start, initial, Configuration.memory]

section

variable {m : Machine} (hn : m.NamesApart)
include hn

theorem NamesApart.state_ne {s : Text} (hs : s ∈ m.stateNames) :
    s ≠ currentVariable ∧ s ≠ nextVariable := by
  have hapart := hn.groups
  simp only [List.pairwise_cons, List.mem_cons, List.not_mem_nil] at hapart
  exact ⟨fun h => hapart.1 fixedNames (by simp) s hs (h ▸ by decide),
    fun h => hn.next_state (h ▸ hs)⟩

theorem NamesApart.predicate_ne {p : Text} (hp : p ∈ m.predicateNames) :
    p ∉ fixedNames ∧ p ≠ nextVariable := by
  have hapart := hn.groups
  simp only [List.pairwise_cons, List.mem_cons, List.not_mem_nil] at hapart
  exact ⟨hapart.2.2.1 fixedNames (by simp) p hp, fun h => hn.next_predicate (h ▸ hp)⟩

theorem NamesApart.action_notMem {a : Text} (ha : a ∈ m.actions) : a ∉ fixedNames := by
  have hapart := hn.groups
  simp only [List.pairwise_cons, List.mem_cons, List.not_mem_nil] at hapart
  exact hapart.2.1 fixedNames (by simp) a ha

end

/-! ## Names that are looked up -/

section

variable {m : Machine} (hn : m.NamesApart)
include hn

theorem read?_within_state {s : Text} (hs : s ∈ m.stateNames) (c : Configuration) (next : Text) :
    (c.within next).read? s = none :=
  c.read?_within next (hn.state_ne hs).1 (hn.state_ne hs).2

theorem isForeign_action {a : Text} (ha : a ∈ m.actions) : isForeign m.sources .void a = true := by
  have hmem : Decl.announced .void a ∈ m.sources := by simp [sources, program, ha]
  have hown := hn.action_notMem ha
  simp only [fixedNames, fixedMeanings, List.map_cons, List.map_nil, List.mem_cons,
    List.not_mem_nil, or_false, not_or] at hown
  simp [isForeign, hmem, function?_sources, hown]

theorem isForeign_predicate {p : Text} (hp : p ∈ m.predicateNames) :
    isForeign m.sources .bool p = true := by
  have hmem : Decl.announced .bool p ∈ m.sources := by simp [sources, program, hp]
  have hown := (hn.predicate_ne hp).1
  simp only [fixedNames, fixedMeanings, List.map_cons, List.map_nil, List.mem_cons,
    List.not_mem_nil, or_false, not_or] at hown
  simp [isForeign, hmem, function?_sources, hown]

/-- The name of a state means its enumerator, in the functions of the program. -/
theorem eval?_state {s : Text} (hs : s ∈ m.stateNames) (world : World) (c : Configuration)
    (next : Text) :
    Expr.eval? m.sources world (c.within next) (.operand (.name s))
      = some (.enumerator s, c.within next) := by
  rw [Expr.eval?, Operand.eval?, read?_within_state hn hs c next]
  simp [hs]

/-- A condition asks its predicate. -/
theorem eval?_condition {p : Predicate} (hp : p.name ∈ m.predicateNames) (world : World)
    (c : Configuration) (next : Text) :
    p.condition.eval? m.sources world (c.within next)
      = some (.truth (p.holds (world c.trace p.name)),
          (c.after (.asked p.name (world c.trace p.name))).within next) := by
  obtain ⟨hfixed, hnext⟩ := hn.predicate_ne hp
  have hread : (c.within next).read? p.name = none :=
    c.read?_within next (fun h => hfixed (h ▸ by decide)) hnext
  have hcall : Operand.eval? m.sources world (c.within next) (.call p.name)
      = some (.truth (world c.trace p.name),
          (c.after (.asked p.name (world c.trace p.name))).within next) := by
    simp [Operand.eval?, hread, isForeign_predicate hn hp]
  rw [Predicate.condition, Predicate.holds, Expr.eval?]
  split
  · rw [Operand.eval?, hcall]
  · exact hcall

end

end Machine

/-! ## Chains of conditions -/

namespace Transition

variable {m : Machine} (hn : m.NamesApart) (world : World)

/-- While a label is sought, a chain is passed over. -/
theorem exec?_code_seek (ds : List Decl) (ts : List Transition) (rest : Code) (v : Text)
    (mem : Memory) :
    (code ts rest).exec? ds world (some v) mem = rest.exec? ds world (some v) mem := by
  cases ts with
  | nil => rfl
  | cons t ts =>
    rw [code]
    split <;> simp [choice, Code.exec?]

include hn

theorem exec?_choice {t : Transition} (ht : t.target ∈ m.stateNames) (c : Configuration)
    (next : Text) (rest : Code) :
    (t.choice rest).exec? m.sources world none (c.within next)
      = rest.exec? m.sources world none (c.within t.target) := by
  rw [choice, Code.exec?, Machine.eval?_state hn ht world c next]
  simp

/-- **A chain of conditions chooses as its transitions do.** What follows it runs with the history
of all questions, and with the target in the variable for the next state, if there is one. -/
theorem exec?_code {ts : List Transition} (htarget : ∀ t ∈ ts, t.target ∈ m.stateNames)
    (hpredicate : ∀ t ∈ ts, t.isUnconditional = false → t.predicate.name ∈ m.predicateNames)
    (c : Configuration) (next : Text) (rest : Code) :
    (code ts rest).exec? m.sources world none (c.within next)
      = rest.exec? m.sources world none
          (({ c with trace := (firstTaken world c.trace ts).2 } : Configuration).within
            ((firstTaken world c.trace ts).1.getD next)) := by
  induction ts generalizing c rest with
  | nil => rfl
  | cons t ts ih =>
    have ht := htarget t (by simp)
    by_cases hu : t.isUnconditional = true
    · rw [code, if_pos hu, firstTaken, if_pos hu, exec?_choice hn world ht]
      rfl
    · have hp := hpredicate t (by simp) (by simpa using hu)
      rw [code, if_neg hu, firstTaken, if_neg hu, Code.exec?,
        Machine.eval?_condition hn hp world c next]
      by_cases hholds : t.predicate.holds (world c.trace t.predicate.name) = true
      · simp only [if_pos hholds]
        rw [exec?_choice hn world ht]
        rfl
      · simp only [if_neg hholds]
        rw [ih (fun t' ht' => htarget t' (List.mem_cons_of_mem _ ht'))
          (fun t' ht' => hpredicate t' (List.mem_cons_of_mem _ ht'))]
        rfl

end Transition

/-! ## A `switch` over the states -/

/-- The case of a state: a label and what follows it. While another label is sought, all of it is
passed over, and none of its statements carries a label. -/
structure IsCase (f : State → Code → Code) (body : State → Code → Code) : Prop where
  eq : ∀ st rest, f st rest = .label st.name (body st rest)
  seek : ∀ ds world st rest v mem,
    (body st rest).exec? ds world (some v) mem = rest.exec? ds world (some v) mem
  labels : ∀ st rest, (body st rest).labels = rest.labels

theorem State.isCase_runCode : IsCase runCode fun st rest => .call st.action (.leave rest) where
  eq _ _ := rfl
  seek _ _ _ _ _ _ := rfl
  labels _ _ := rfl

theorem Transition.labels_code (ts : List Transition) (rest : Code) :
    (code ts rest).labels = rest.labels := by
  cases ts with
  | nil => rfl
  | cons t ts =>
    rw [code]
    split <;> rfl

theorem State.isCase_transitionCode :
    IsCase transitionCode fun st rest => Transition.code st.transitions (.leave rest) where
  eq _ _ := rfl
  seek ds world st rest v mem := by
    rw [Transition.exec?_code_seek]
    rfl
  labels st rest := Transition.labels_code st.transitions (.leave rest)

namespace IsCase

variable {f body : State → Code → Code} (hf : IsCase f body)
include hf

theorem labels_foldr (states : List State) :
    (states.foldr f .done).labels = states.map State.name := by
  induction states with
  | nil => rfl
  | cons st rest ih => rw [List.foldr_cons, hf.eq, Code.labels, hf.labels, ih, List.map_cons]

/-- The cases in front of the one that is sought are passed over. -/
theorem exists_exec?_foldr {states : List State} {v : Text} {st : State}
    (h : states.find? (fun s => s.name == v) = some st) (ds : List Decl) (world : World) :
    ∃ rest, ∀ mem, (states.foldr f .done).exec? ds world (some v) mem
      = (body st rest).exec? ds world none mem := by
  induction states with
  | nil => exact absurd h (by simp)
  | cons s states ih =>
    by_cases hs : s.name = v
    · rw [List.find?_cons_of_pos (by simpa using hs)] at h
      cases h
      refine ⟨states.foldr f .done, fun mem => ?_⟩
      rw [List.foldr_cons, hf.eq, Code.exec?, if_pos hs]
    · rw [List.find?_cons_of_neg (by simpa using hs)] at h
      obtain ⟨rest, hrest⟩ := ih h
      refine ⟨rest, fun mem => ?_⟩
      rw [List.foldr_cons, hf.eq, Code.exec?, if_neg hs, hf.seek, hrest]

/-- **A `switch` over the states runs the case of the current state**, and nothing else. -/
theorem exec?_switch {m : Machine} (hnodup : m.stateNames.Nodup) (world : World)
    {c : Configuration} {st : State} (hst : m.lookup? c.current = some st) {mem after : Memory}
    (hread : mem.read? currentVariable = some c.current)
    (hnames : ∀ s ∈ m.stateNames, mem.read? s = none)
    (hbody : ∀ rest, (body st rest).exec? m.sources world none mem = some (.left, after))
    (rest : Code) :
    (Code.choose (.operand (.name currentVariable)) (m.states.foldr f .done) rest).exec? m.sources
        world none mem
      = rest.exec? m.sources world none after := by
  have hgood : (m.states.foldr f .done).hasGoodLabels m.sources mem = true := by
    rw [Code.hasGoodLabels, hf.labels_foldr, Machine.enumerators_sources]
    simp only [Bool.and_eq_true, decide_eq_true_eq, List.all_eq_true, Option.isNone_iff_eq_none]
    exact ⟨hnodup, fun s hs => ⟨hnames s hs, hs⟩⟩
  obtain ⟨others, hothers⟩ := hf.exists_exec?_foldr hst m.sources world
  rw [Code.exec?, Expr.eval?, Operand.eval?, hread]
  simp only
  rw [if_pos hgood, hothers, hbody]
  rfl

end IsCase

/-! ## One call -/

/-- The function that a request calls. -/
def Request.function : Request → Text
  | run => runName
  | transition => transitionName

namespace Machine

/-- The current state is written only if it changes. -/
theorem exec?_commit (ds : List Decl) (world : World) (c : Configuration) (next : Text) :
    commit.exec? ds world none (c.within next) = some (.onward, (c.moveTo next).within next) := by
  have heval : Expr.eval? ds world (c.within next)
      (.differ (.name nextVariable) (.name currentVariable))
      = some (.truth (next != c.current), c.within next) := by
    simp [Expr.eval?, Operand.eval?]
  rw [commit, Code.exec?, heval, Configuration.moveTo]
  by_cases h : next = c.current
  · simp [h, Code.exec?]
  · simp [h, Code.exec?, Expr.eval?, Operand.eval?]

variable {m : Machine} (hm : m.WellFormed) (hn : m.NamesApart) (hnodup : m.stateNames.Nodup)
  (world : World)
include hn hnodup

theorem call?_run {c : Configuration} {st : State} (hst : m.lookup? c.current = some st) :
    call? m.sources world runName c.memory = some (reactIn world c st .run).memory := by
  have haction : st.action ∈ m.actions := mem_actions.mpr ⟨st, (lookup?_eq_some hst).1, rfl⟩
  have hread : c.memory.read? st.action = none :=
    c.read?_memory fun h => hn.action_notMem haction (h ▸ by decide)
  have hbody : m.runBody.exec? m.sources world none c.memory
      = some (.onward, (c.after (.called st.action)).memory) := by
    refine State.isCase_runCode.exec?_switch hnodup world hst c.read?_memory_current
      (fun s hs => c.read?_memory (hn.state_ne hs).1) (fun rest => ?_) .done
    simp [Code.exec?, hread, isForeign_action hn haction]
  rw [call?, function?_sources, if_pos rfl]
  simp only [Option.bind_some, enter?, hbody]
  rfl

include hm

theorem call?_transition {c : Configuration} {st : State} (hst : m.lookup? c.current = some st) :
    call? m.sources world transitionName c.memory
      = some (reactIn world c st .transition).memory := by
  obtain ⟨hmem, -⟩ := lookup?_eq_some hst
  -- the chain is entered with the current state as the next one
  have hchain := Transition.exec?_code hn world (fun t ht => hm.target st hmem t ht)
    (fun t ht hu => mem_predicateNames.mpr ⟨st, hmem, t, ht, hu, rfl⟩) c c.current
  have henter : enter? m.sources world [nextLocal] c.memory = some (c.within c.current) := by
    simp [enter?, nextLocal, Expr.eval?, Operand.eval?]
    rfl
  have hbody := State.isCase_transitionCode.exec?_switch hnodup world hst
    (c.read?_within_current c.current) (fun s hs => read?_within_state hn hs c c.current)
    (fun rest => hchain (.leave rest)) commit
  rw [call?, function?_sources, if_neg (by decide), if_pos rfl]
  simp only [Option.bind_some, henter, transitionBody, hbody, exec?_commit]
  rw [reactIn]
  cases hchosen : (Transition.firstTaken world c.trace st.transitions).1 with
  | some target => rfl
  | none =>
    simp only [Option.getD_none, Configuration.moveTo, if_pos]
    rfl

/-- **One call is one request.** -/
theorem call?_function {c : Configuration} (hc : c.current ∈ m.stateNames) (r : Request) :
    call? m.sources world r.function c.memory = some (m.react world c r).memory := by
  obtain ⟨st, hst⟩ := exists_lookup? hc
  rw [react, hst]
  cases r with
  | run => exact call?_run hn hnodup world hst
  | transition => exact call?_transition hm hn hnodup world hst

/-- **Calls are requests**, in any order and number. -/
theorem execute?_eq_behave (rs : List Request) :
    execute? m.sources world (rs.map Request.function) = some (m.behave world rs).memory := by
  have hcalls : ∀ (rs : List Request) (c : Configuration), c.current ∈ m.stateNames →
      (rs.map Request.function).foldlM (fun mem f => call? m.sources world f mem) c.memory
        = some (rs.foldl (m.react world) c).memory := by
    intro rs
    induction rs with
    | nil => exact fun _ _ => rfl
    | cons r rest ih =>
      intro c hc
      rw [List.map_cons, List.foldlM_cons, call?_function hm hn hnodup world hc r]
      exact ih _ (current_react_mem hm world hc r)
  rw [execute?, initial?_sources hm]
  exact hcalls rs m.initial hm.start

end Machine

/-- **Generated code simulates its machine.** Both sources of an accepted machine whose names are
apart can be read, and the program they make, called from its start in any order and number and with
predicates that answer as they like, ends each time with the events and the current state of the
machine, which is a declared one. -/
theorem generated_simulates (layout : SourceLayout) {m : Machine} (hmade : m.Made)
    (hv : m.violations = []) (hn : m.NamesApart) :
    ∃ header source, parse (layout.header m) = some header ∧
      parse (layout.implementation m) = some source ∧
      ∀ (world : World) (rs : List Request),
        execute? (header ++ source) world (rs.map Request.function)
          = some (m.behave world rs).memory ∧
        (m.behave world rs).current ∈ m.stateNames := by
  have hm := (Machine.violations_eq_nil_iff _).mp hv
  refine ⟨m.interface, m.program, layout.parse_header hm, layout.parse_implementation hm, ?_⟩
  intro world rs
  exact ⟨Machine.execute?_eq_behave hm hn hmade.nodup world rs,
    Machine.current_behave_mem hm world rs⟩

/-- A light that is switched by two predicates, one of them negated, and ends where nothing leads
on. -/
def lamp : Machine :=
  ⟨[⟨"OFF", "shine", [⟨⟨"pressed", false⟩, "ON"⟩, ⟨⟨"powered", true⟩, "DEAD"⟩]⟩,
    ⟨"ON", "glow", [⟨⟨"pressed", true⟩, "ON"⟩, ⟨⟨[], false⟩, "OFF"⟩]⟩,
    ⟨"DEAD", "shine", []⟩], "OFF"⟩

/-- The sources of the light do what the light does. -/
theorem lamp_simulated :
    lamp.Made ∧ lamp.violations = [] ∧ lamp.NamesApart ∧
      ∃ header source, parse (SourceLayout.header {} lamp) = some header ∧
        parse (SourceLayout.implementation {} lamp) = some source ∧
        ∀ (world : World) (rs : List Request),
          execute? (header ++ source) world (rs.map Request.function)
            = some (lamp.behave world rs).memory ∧
          (lamp.behave world rs).current ∈ lamp.stateNames := by
  have hmake : Machine.make "OFF" lamp.states = .ok lamp := rfl
  have hv : lamp.violations = [] := by decide
  have hn : lamp.NamesApart := by decide
  exact ⟨.ofStates hmake, hv, hn, generated_simulates {} (.ofStates hmake) hv hn⟩

end StateForge
