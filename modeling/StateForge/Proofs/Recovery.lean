import StateForge.Machine.Source
import StateForge.Proofs.Acceptance

/-!
# What an implementation tells about its machine

The lines of an implementation determine the machine they were generated from, as far as it can be
reached: two machines with the same lines have the same start, the same names and actions, and for
each state the same transitions up to the first unconditional one. Names can be any texts here, also
texts that look like generated code.

A section of the implementation is a list of blocks of lines and ends at a line that starts no
block. `SelfDelimiting` says of a kind of block that its lines tell where it ends and what it was
made of, and `SelfDelimiting.flatMap_append` that then the whole section does, however long it is.
Different kinds of lines are told apart by a single byte, which `ne_of_getElem?` compares.

What is not in the lines is whether a name starts with the negation mark or the mark stands in front
of the name. That is settled by how predicates are read: `Predicate.IsRead` is the fact about
`Predicate.parse` that makes `Predicate.written` injective.
-/

set_option autoImplicit false

namespace StateForge

/-! ## Blocks of lines -/

/-- Texts that differ in one byte are different. -/
theorem Text.ne_of_getElem? {s t : Text} (n : Nat) (a b : Option UInt8) (hs : s[n]? = a)
    (ht : t[n]? = b) (hab : a ≠ b) : s ≠ t := by
  rintro rfl
  exact hab (hs.symm.trans ht)

/-- The text between a fixed beginning and a fixed end is determined. -/
theorem Text.around_inj {lead tail s t : Text} (h : lead ++ s ++ tail = lead ++ t ++ tail) :
    s = t :=
  List.append_cancel_left (List.append_cancel_right h)

/-- The lines made of an item tell where they end, and what `view` shows of the item. -/
def SelfDelimiting {α β : Type} (P : α → Prop) (lines : α → List Text) (view : α → β) : Prop :=
  ∀ ⦃a b : α⦄ ⦃rest rest' : List Text⦄, P a → P b → lines a ++ rest = lines b ++ rest' →
    view a = view b ∧ rest = rest'

/-- **A section can be taken apart**: a list of blocks up to a line that starts none of them. -/
theorem SelfDelimiting.flatMap_append {α β : Type} {P : α → Prop} {lines : α → List Text}
    {view : α → β} (h : SelfDelimiting P lines view) {stop : Text}
    (hstop : ∀ a, ∃ first more, lines a = first :: more ∧ first ≠ stop) {as bs : List α}
    (has : ∀ a ∈ as, P a) (hbs : ∀ b ∈ bs, P b) {rest rest' : List Text}
    (heq : as.flatMap lines ++ stop :: rest = bs.flatMap lines ++ stop :: rest') :
    as.map view = bs.map view ∧ rest = rest' := by
  have hends : ∀ (a : α) (more rest₁ rest₂ : List Text),
      lines a ++ more ++ rest₁ ≠ stop :: rest₂ := by
    intro a more rest₁ rest₂ hsame
    obtain ⟨first, others, hlines, hne⟩ := hstop a
    rw [hlines] at hsame
    exact hne (List.cons.inj hsame).1
  induction as generalizing bs with
  | nil =>
    cases bs with
    | nil => exact ⟨rfl, (List.cons.inj heq).2⟩
    | cons b bs =>
      rw [List.flatMap_cons] at heq
      exact absurd heq.symm (hends b _ _ _)
  | cons a as ih =>
    cases bs with
    | nil =>
      rw [List.flatMap_cons] at heq
      exact absurd heq (hends a _ _ _)
    | cons b bs =>
      rw [List.flatMap_cons, List.flatMap_cons, List.append_assoc, List.append_assoc] at heq
      obtain ⟨hview, hmore⟩ := h (has a (by simp)) (hbs b (by simp)) heq
      obtain ⟨hviews, hrest⟩ := ih (fun x hx => has x (List.mem_cons_of_mem _ hx))
        (fun x hx => hbs x (List.mem_cons_of_mem _ hx)) hmore
      exact ⟨by rw [List.map_cons, List.map_cons, hview, hviews], hrest⟩

/-- Blocks of one line each. -/
theorem SelfDelimiting.of_injective {α : Type} {line : α → Text}
    (h : ∀ a b, line a = line b → a = b) :
    SelfDelimiting (fun _ => True) (fun a => [line a]) id := by
  intro a b rest rest' _ _ heq
  obtain ⟨hline, hrest⟩ := List.cons.inj heq
  exact ⟨h a b hline, hrest⟩

/-! ## Predicates -/

namespace Predicate

/-- What is known of a predicate that was read from a document. -/
structure IsRead (p : Predicate) : Prop where
  /-- A mark in front belongs to no name that is not negated. -/
  unmarked : p.negated = false → p.name.head? ≠ some negationMark
  /-- Nothing cannot be negated. -/
  named : p.name = [] → p.negated = false

theorem isRead_of_parse {written : Text} {p : Predicate} (h : parse written = .ok p) :
    p.IsRead := by
  rw [parse] at h
  split at h
  · cases h
    exact ⟨fun _ => by simp [always], fun _ => rfl⟩
  · rename_i b rest _
    split at h
    · simp only at h
      split at h
      · exact nomatch h
      · cases h
        exact ⟨(nomatch ·), fun hname => absurd hname ‹_›⟩
    · rename_i hmark
      cases h
      exact ⟨fun _ hhead => hmark (Option.some.inj hhead), fun hname => nomatch hname⟩

/-- **The mark tells a negation from a name.** -/
theorem IsRead.eq_of_written_eq {p q : Predicate} (hp : p.IsRead) (hq : q.IsRead)
    (h : p.written = q.written) : p = q := by
  obtain ⟨name, negated⟩ := p
  obtain ⟨name', negated'⟩ := q
  cases negated <;> cases negated'
  · rw [show name = name' from h]
  · exact absurd (congrArg List.head? h) (hp.unmarked rfl)
  · exact absurd (congrArg List.head? h).symm (hq.unmarked rfl)
  · rw [show name = name' from (List.cons.inj h).2]

theorem IsRead.eq_of_isEmpty {p q : Predicate} (hp : p.IsRead) (hq : q.IsRead)
    (hpe : p.isEmpty = true) (hqe : q.isEmpty = true) : p = q := by
  have hname := eq_of_beq hpe
  have hname' := eq_of_beq hqe
  obtain ⟨name, negated⟩ := p
  obtain ⟨name', negated'⟩ := q
  cases hname
  cases hname'
  rw [show negated = false from hp.named rfl, show negated' = false from hq.named rfl]

theorem call_inj {p q : Predicate} (hp : p.IsRead) (hq : q.IsRead) (h : p.call = q.call) : p = q :=
  hp.eq_of_written_eq hq (List.append_cancel_right h)

end Predicate

/-- The predicates of the transitions were read from a document. -/
def Transition.AllRead (ts : List Transition) : Prop :=
  ∀ t ∈ ts, t.predicate.IsRead

theorem TransitionDocument.allRead_of_buildAll {i j : Nat} {ds : List TransitionDocument}
    {ts : List Transition} (h : buildAll i j ds = .ok ts) : Transition.AllRead ts := by
  induction ds generalizing j ts with
  | nil =>
    cases h
    exact fun t ht => absurd ht (by simp)
  | cons d ds ih =>
    rw [buildAll] at h
    obtain ⟨t, ht, h⟩ := exists_of_bind_eq_ok h
    obtain ⟨rest, hrest, h⟩ := exists_of_bind_eq_ok h
    cases h
    replace ht := eq_ok_of_mapError_eq_ok ht
    rw [Transition.make] at ht
    split at ht
    · exact nomatch ht
    · obtain ⟨p, hp, ht⟩ := exists_of_bind_eq_ok ht
      cases ht
      intro t' ht'
      rcases List.mem_cons.mp ht' with rfl | ht'
      · exact Predicate.isRead_of_parse hp
      · exact ih hrest t' ht'

theorem StateDocument.allRead_of_buildAll {i : Nat} {ds : List StateDocument} {states : List State}
    (h : buildAll i ds = .ok states) : ∀ st ∈ states, Transition.AllRead st.transitions := by
  induction ds generalizing i states with
  | nil =>
    cases h
    exact fun st hst => absurd hst (by simp)
  | cons d ds ih =>
    rw [buildAll] at h
    obtain ⟨st, hst, h⟩ := exists_of_bind_eq_ok h
    obtain ⟨rest, hrest, h⟩ := exists_of_bind_eq_ok h
    cases h
    rw [build] at hst
    obtain ⟨ts, hts, hst⟩ := exists_of_bind_eq_ok hst
    have hmake := eq_ok_of_mapError_eq_ok hst
    rw [State.make] at hmake
    split at hmake
    · exact nomatch hmake
    · split at hmake
      · exact nomatch hmake
      · cases hmake
        intro st' hst'
        rcases List.mem_cons.mp hst' with rfl | hst'
        · exact TransitionDocument.allRead_of_buildAll hts
        · exact ih hrest st' hst'

theorem Machine.states_of_make {start : Text} {states : List State} {m : Machine}
    (h : make start states = .ok m) : m.states = states := by
  rw [make] at h
  split at h
  · exact absurd h (by simp)
  · split at h
    · exact absurd h (by simp)
    · cases h
      rfl

/-- **Every predicate of a machine that was built from a document was read.** -/
theorem Document.allRead_of_build {d : Document} {m : Machine} (h : d.build = .ok m) :
    ∀ st ∈ m.states, Transition.AllRead st.transitions := by
  rw [build] at h
  obtain ⟨states, hstates, h⟩ := exists_of_bind_eq_ok h
  rw [Machine.states_of_make (eq_ok_of_mapError_eq_ok h)]
  exact StateDocument.allRead_of_buildAll hstates

/-! ## Chains of conditions -/

namespace Transition

/-- The transitions that can be reached: all up to the first unconditional one. -/
def reached : List Transition → List Transition
  | [] => []
  | t :: rest => if t.isUnconditional then [t] else t :: reached rest

/-- Where only the last transition is unconditional, all can be reached. -/
theorem reached_eq_self {ts : List Transition}
    (h : ∀ t ∈ ts.dropLast, t.isUnconditional = false) : reached ts = ts := by
  induction ts with
  | nil => rfl
  | cons t ts ih =>
    rw [reached]
    cases ts with
    | nil =>
      split
      · rfl
      · rfl
    | cons t' ts =>
      rw [List.dropLast_cons_cons] at h
      rw [if_neg (by simp [h t (by simp)]), ih fun x hx => h x (List.mem_cons_of_mem _ hx)]

theorem assignment_inj {depth : Text} {t t' : Transition}
    (h : t.assignment depth = t'.assignment depth) : t.target = t'.target :=
  Text.around_inj h

/-- The last branch, which is taken whenever it is reached. -/
def otherwise : Text := "\t\t\x7d else \x7b"

/-- A branch after the first. -/
def orIf (t : Transition) : Text :=
  "\t\t\x7d else if (" ++ t.predicate.call ++ ") \x7b"

/-- The first branch. -/
def openIf (t : Transition) : Text :=
  "\t\tif (" ++ t.predicate.call ++ ") \x7b"

theorem chainRest_cons_of_unconditional {t : Transition} (h : t.isUnconditional = true)
    (ts : List Transition) : chainRest (t :: ts) = [otherwise, t.assignment "\t\t\t"] := by
  rw [chainRest, if_pos h]
  rfl

theorem chainRest_cons_of_conditional {t : Transition} (h : ¬ t.isUnconditional = true)
    (ts : List Transition) :
    chainRest (t :: ts) = t.orIf :: t.assignment "\t\t\t" :: chainRest ts := by
  rw [chainRest, if_neg h]
  rfl

/-- The end of a chain is no branch: it has nothing after its brace. -/
theorem chainEnd_ne {line : Text} (h : line = otherwise ∨ ∃ t, line = orIf t) :
    chainEnd ≠ line := by
  rcases h with rfl | ⟨t, rfl⟩
  · exact Text.ne_of_getElem? 3 none (some 0x20) rfl rfl (by decide)
  · exact Text.ne_of_getElem? 3 none (some 0x20) rfl rfl (by decide)

theorem exists_chainRest_cons (t : Transition) (ts : List Transition) :
    ∃ line more, chainRest (t :: ts) = line :: more ∧ (line = otherwise ∨ ∃ t, line = orIf t) := by
  by_cases hu : t.isUnconditional = true
  · exact ⟨_, _, chainRest_cons_of_unconditional hu ts, .inl rfl⟩
  · exact ⟨_, _, chainRest_cons_of_conditional hu ts, .inr ⟨t, rfl⟩⟩

theorem otherwise_ne_orIf (t : Transition) : otherwise ≠ t.orIf :=
  Text.ne_of_getElem? 9 (some 0x7b) (some 0x69) rfl rfl (by decide)

theorem orIf_inj {t t' : Transition} (ht : t.predicate.IsRead) (ht' : t'.predicate.IsRead)
    (h : t.orIf = t'.orIf) : t.predicate = t'.predicate :=
  Predicate.call_inj ht ht' (Text.around_inj h)

theorem openIf_inj {t t' : Transition} (ht : t.predicate.IsRead) (ht' : t'.predicate.IsRead)
    (h : t.openIf = t'.openIf) : t.predicate = t'.predicate :=
  Predicate.call_inj ht ht' (Text.around_inj h)

theorem eq_of_predicate_target {t t' : Transition} (hpredicate : t.predicate = t'.predicate)
    (htarget : t.target = t'.target) : t = t' := by
  cases t
  cases t'
  simp only [mk.injEq]
  exact ⟨hpredicate, htarget⟩

/-- The branches after the first one, up to the end of the chain. -/
theorem chainRest_append_inj {ts ts' : List Transition} (hts : AllRead ts) (hts' : AllRead ts')
    {rest rest' : List Text}
    (h : chainRest ts ++ chainEnd :: rest = chainRest ts' ++ chainEnd :: rest') :
    reached ts = reached ts' ∧ rest = rest' := by
  induction ts generalizing ts' with
  | nil =>
    cases ts' with
    | nil => exact ⟨rfl, (List.cons.inj h).2⟩
    | cons t' ts' =>
      obtain ⟨line, more, hlines, hbranch⟩ := exists_chainRest_cons t' ts'
      rw [hlines] at h
      exact absurd (List.cons.inj h).1 (chainEnd_ne hbranch)
  | cons t ts ih =>
    cases ts' with
    | nil =>
      obtain ⟨line, more, hlines, hbranch⟩ := exists_chainRest_cons t ts
      rw [hlines] at h
      exact absurd (List.cons.inj h).1.symm (chainEnd_ne hbranch)
    | cons t' ts' =>
      have ht := hts t (by simp)
      have ht' := hts' t' (by simp)
      by_cases hu : t.isUnconditional = true <;> by_cases hu' : t'.isUnconditional = true
      · rw [chainRest_cons_of_unconditional hu, chainRest_cons_of_unconditional hu'] at h
        obtain ⟨-, h⟩ := List.cons.inj h
        obtain ⟨hassign, h⟩ := List.cons.inj h
        rw [reached, if_pos hu, reached, if_pos hu',
          eq_of_predicate_target (ht.eq_of_isEmpty ht' hu hu') (assignment_inj hassign)]
        exact ⟨rfl, (List.cons.inj h).2⟩
      · rw [chainRest_cons_of_unconditional hu, chainRest_cons_of_conditional hu'] at h
        exact absurd (List.cons.inj h).1 (otherwise_ne_orIf t')
      · rw [chainRest_cons_of_conditional hu, chainRest_cons_of_unconditional hu'] at h
        exact absurd (List.cons.inj h).1.symm (otherwise_ne_orIf t)
      · rw [chainRest_cons_of_conditional hu, chainRest_cons_of_conditional hu'] at h
        obtain ⟨hbranch, h⟩ := List.cons.inj h
        obtain ⟨hassign, h⟩ := List.cons.inj h
        obtain ⟨hreached, hrest⟩ := ih (fun x hx => hts x (List.mem_cons_of_mem _ hx))
          (fun x hx => hts' x (List.mem_cons_of_mem _ hx)) h
        rw [reached, if_neg hu, reached, if_neg hu', hreached,
          eq_of_predicate_target (orIf_inj ht ht' hbranch) (assignment_inj hassign)]
        exact ⟨rfl, hrest⟩

theorem chain_cons_of_unconditional {t : Transition} (h : t.isUnconditional = true)
    (ts : List Transition) : chain (t :: ts) = [t.assignment "\t\t"] := by
  rw [chain, if_pos h]

theorem chain_cons_of_conditional {t : Transition} (h : ¬ t.isUnconditional = true)
    (ts : List Transition) :
    chain (t :: ts) = t.openIf :: t.assignment "\t\t\t" :: (chainRest ts ++ [chainEnd]) := by
  rw [chain, if_neg h]
  rfl

/-- The end of a case is not the beginning of a chain. -/
theorem caseEnd_ne {t : Transition} {line : Text}
    (h : line = t.assignment "\t\t" ∨ line = t.openIf) : State.caseEnd ≠ line := by
  rcases h with rfl | rfl
  · exact Text.ne_of_getElem? 2 (some 0x62) (some 0x6e) rfl rfl (by decide)
  · exact Text.ne_of_getElem? 2 (some 0x62) (some 0x69) rfl rfl (by decide)

theorem exists_chain_cons (t : Transition) (ts : List Transition) :
    ∃ line more, chain (t :: ts) = line :: more ∧
      (line = t.assignment "\t\t" ∨ line = t.openIf) := by
  by_cases hu : t.isUnconditional = true
  · exact ⟨_, _, chain_cons_of_unconditional hu ts, .inl rfl⟩
  · exact ⟨_, _, chain_cons_of_conditional hu ts, .inr rfl⟩

theorem assignment_ne_openIf (t t' : Transition) : t.assignment "\t\t" ≠ t'.openIf :=
  Text.ne_of_getElem? 2 (some 0x6e) (some 0x69) rfl rfl (by decide)

/-- **The code of a case tells which transitions it was made of**, as far as they are reached. -/
theorem chain_append_inj {ts ts' : List Transition} (hts : AllRead ts) (hts' : AllRead ts')
    {rest rest' : List Text}
    (h : chain ts ++ State.caseEnd :: rest = chain ts' ++ State.caseEnd :: rest') :
    reached ts = reached ts' ∧ rest = rest' := by
  cases ts with
  | nil =>
    cases ts' with
    | nil => exact ⟨rfl, (List.cons.inj h).2⟩
    | cons t' ts' =>
      obtain ⟨line, more, hlines, hfirst⟩ := exists_chain_cons t' ts'
      rw [hlines] at h
      exact absurd (List.cons.inj h).1 (caseEnd_ne hfirst)
  | cons t ts =>
    cases ts' with
    | nil =>
      obtain ⟨line, more, hlines, hfirst⟩ := exists_chain_cons t ts
      rw [hlines] at h
      exact absurd (List.cons.inj h).1.symm (caseEnd_ne hfirst)
    | cons t' ts' =>
      have ht := hts t (by simp)
      have ht' := hts' t' (by simp)
      by_cases hu : t.isUnconditional = true <;> by_cases hu' : t'.isUnconditional = true
      · rw [chain_cons_of_unconditional hu, chain_cons_of_unconditional hu'] at h
        obtain ⟨hassign, h⟩ := List.cons.inj h
        rw [reached, if_pos hu, reached, if_pos hu',
          eq_of_predicate_target (ht.eq_of_isEmpty ht' hu hu') (assignment_inj hassign)]
        exact ⟨rfl, (List.cons.inj h).2⟩
      · rw [chain_cons_of_unconditional hu, chain_cons_of_conditional hu'] at h
        exact absurd (List.cons.inj h).1 (assignment_ne_openIf t t')
      · rw [chain_cons_of_conditional hu, chain_cons_of_unconditional hu'] at h
        exact absurd (List.cons.inj h).1.symm (assignment_ne_openIf t' t)
      · rw [chain_cons_of_conditional hu, chain_cons_of_conditional hu'] at h
        simp only [List.cons_append, List.append_assoc, List.nil_append, List.cons.injEq] at h
        obtain ⟨hbranch, hassign, h⟩ := h
        obtain ⟨hreached, hrest⟩ := chainRest_append_inj
          (fun x hx => hts x (List.mem_cons_of_mem _ hx))
          (fun x hx => hts' x (List.mem_cons_of_mem _ hx)) h
        rw [reached, if_neg hu, reached, if_neg hu', hreached,
          eq_of_predicate_target (openIf_inj ht ht' hbranch) (assignment_inj hassign)]
        exact ⟨rfl, (List.cons.inj hrest).2⟩

end Transition

/-! ## Cases -/

namespace State

theorem caseLabel_inj {st st' : State} (h : st.caseLabel = st'.caseLabel) : st.name = st'.name :=
  Text.around_inj h

/-- The line that closes a switch. -/
def switchEnd : Text := "\t\x7d"

theorem caseLabel_ne_switchEnd (st : State) : st.caseLabel ≠ switchEnd :=
  Text.ne_of_getElem? 1 (some 0x63) (some 0x7d) rfl rfl (by decide)

theorem selfDelimiting_runCase :
    SelfDelimiting (fun _ => True) runCase fun st => (st.name, st.action) := by
  intro st st' rest rest' _ _ h
  obtain ⟨hlabel, h⟩ := List.cons.inj h
  obtain ⟨hcall, h⟩ := List.cons.inj h
  exact ⟨Prod.ext (caseLabel_inj hlabel) (Text.around_inj hcall), (List.cons.inj h).2⟩

theorem selfDelimiting_transitionCase :
    SelfDelimiting (fun st => Transition.AllRead st.transitions) transitionCase
      fun st => (st.name, Transition.reached st.transitions) := by
  intro st st' rest rest' hst hst' h
  simp only [transitionCase, List.cons_append, List.append_assoc, List.nil_append,
    List.cons.injEq] at h
  obtain ⟨hlabel, h⟩ := h
  obtain ⟨hreached, hrest⟩ := Transition.chain_append_inj hst hst' h
  exact ⟨Prod.ext (caseLabel_inj hlabel) hreached, hrest⟩

end State

/-! ## Implementations -/

namespace Machine

/-- What can be seen of a state in the generated code. -/
def visibleState (st : State) : Text × Text × List Transition :=
  (st.name, st.action, Transition.reached st.transitions)

theorem runFunction_append_inj {m m' : Machine} {rest rest' : List Text}
    (h : m.runFunction ++ rest = m'.runFunction ++ rest') :
    m.states.map (fun st => (st.name, st.action)) = m'.states.map (fun st => (st.name, st.action)) ∧
      rest = rest' := by
  have hlines : ∀ (m : Machine) (rest : List Text), m.runFunction ++ rest
      = runOpening ++ (m.states.flatMap State.runCase ++ State.switchEnd :: "\x7d" :: rest) := by
    intro m rest
    simp [runFunction, runClosing, State.switchEnd]
  rw [hlines, hlines] at h
  obtain ⟨hstates, hrest⟩ := State.selfDelimiting_runCase.flatMap_append
    (fun st => ⟨_, _, rfl, st.caseLabel_ne_switchEnd⟩) (fun _ _ => trivial) (fun _ _ => trivial)
    (List.append_cancel_left h)
  exact ⟨hstates, (List.cons.inj hrest).2⟩

theorem transitionFunction_inj {m m' : Machine}
    (hm : ∀ st ∈ m.states, Transition.AllRead st.transitions)
    (hm' : ∀ st ∈ m'.states, Transition.AllRead st.transitions)
    (h : m.transitionFunction = m'.transitionFunction) :
    m.states.map (fun st => (st.name, Transition.reached st.transitions))
      = m'.states.map (fun st => (st.name, Transition.reached st.transitions)) := by
  have hlines : ∀ m : Machine, m.transitionFunction
      = transitionOpening ++ (m.states.flatMap State.transitionCase ++
          State.switchEnd :: transitionClosing.tail) := by
    intro m
    simp [transitionFunction, transitionClosing, State.switchEnd]
  rw [hlines, hlines] at h
  exact (State.selfDelimiting_transitionCase.flatMap_append
    (fun st => ⟨_, _, rfl, st.caseLabel_ne_switchEnd⟩) hm hm' (List.append_cancel_left h)).1

/-- Declarations end at the first empty line. -/
theorem declarations_append_inj {declaration : Text → Text}
    (hinj : ∀ s t, declaration s = declaration t → s = t) (hne : ∀ s, declaration s ≠ [])
    {names names' : List Text} {rest rest' : List Text}
    (h : names.map declaration ++ [] :: rest = names'.map declaration ++ [] :: rest') :
    rest = rest' := by
  rw [List.map_eq_flatMap, List.map_eq_flatMap] at h
  exact ((SelfDelimiting.of_injective hinj).flatMap_append
    (fun name => ⟨_, _, rfl, hne name⟩) (fun _ _ => trivial) (fun _ _ => trivial) h).2

/-- Two views of a list, side by side. -/
theorem map_prod_eq {α β γ : Type} {f : α → β} {g : α → γ} {as bs : List α}
    (hf : as.map f = bs.map f) (hg : as.map g = bs.map g) :
    as.map (fun a => (f a, g a)) = bs.map fun a => (f a, g a) := by
  rw [← List.zip_map', ← List.zip_map', hf, hg]

/-- **The lines of an implementation show the start and the visible part of every state.** -/
theorem visible_of_implementation_eq {layout : SourceLayout} {m m' : Machine}
    (hm : ∀ st ∈ m.states, Transition.AllRead st.transitions)
    (hm' : ∀ st ∈ m'.states, Transition.AllRead st.transitions)
    (h : layout.implementation m = layout.implementation m') :
    m.start = m'.start ∧ m.states.map visibleState = m'.states.map visibleState := by
  rw [SourceLayout.implementation, SourceLayout.implementation] at h
  have hactions := (List.cons.inj (List.append_cancel_left h)).2
  have hpredicates := declarations_append_inj (fun _ _ => Text.around_inj)
    (fun _ => List.cons_ne_nil _ _) hactions
  have hvariable := declarations_append_inj (fun _ _ => Text.around_inj)
    (fun _ => List.cons_ne_nil _ _) hpredicates
  simp only [stateVariable, List.cons_append, List.nil_append, List.cons.injEq] at hvariable
  obtain ⟨-, hstart, -, hfunctions⟩ := hvariable
  obtain ⟨hactions, hrest⟩ := runFunction_append_inj hfunctions
  have htransitions := transitionFunction_inj hm hm' (List.cons.inj hrest).2
  refine ⟨Text.around_inj hstart, ?_⟩
  have hboth := congrArg (List.map fun x => (x.1.1, x.1.2, x.2.2))
    (map_prod_eq hactions htransitions)
  rw [List.map_map, List.map_map] at hboth
  exact hboth

/-- Nothing is hidden in a machine that was accepted. -/
theorem visibleState_of_wellFormed {m : Machine} (hm : m.WellFormed) :
    m.states.map visibleState = m.states.map fun st => (st.name, st.action, st.transitions) := by
  refine List.map_congr_left fun st hst => ?_
  rw [visibleState, Transition.reached_eq_self (hm.conditional hst)]

end Machine

/-- **The implementation determines the machine**, for machines that were built from documents: its
start, the names and actions of its states in order, and the transitions of each state up to the
first unconditional one. For machines that were accepted as well, that is everything. -/
theorem implementation_determines_machine {layout : SourceLayout} {d d' : Document}
    {m m' : Machine} (hm : d.build = .ok m) (hm' : d'.build = .ok m')
    (h : layout.implementation m = layout.implementation m') :
    m.start = m'.start ∧
    m.states.map (fun st => (st.name, st.action, Transition.reached st.transitions))
      = m'.states.map (fun st => (st.name, st.action, Transition.reached st.transitions)) ∧
    (m.violations = [] → m'.violations = [] → m = m') := by
  obtain ⟨hstart, hstates⟩ := Machine.visible_of_implementation_eq
    (Document.allRead_of_build hm) (Document.allRead_of_build hm') h
  refine ⟨hstart, hstates, fun hvalid hvalid' => ?_⟩
  rw [Machine.visibleState_of_wellFormed ((Machine.violations_eq_nil_iff _).mp hvalid),
    Machine.visibleState_of_wellFormed ((Machine.violations_eq_nil_iff _).mp hvalid')] at hstates
  have hinj : ∀ st st' : State,
      (st.name, st.action, st.transitions) = (st'.name, st'.action, st'.transitions) →
        st = st' := by
    rintro ⟨⟩ ⟨⟩ heq
    simpa using heq
  obtain ⟨states, start⟩ := m
  obtain ⟨states', start'⟩ := m'
  cases hstart
  cases (List.map_inj_right hinj).mp hstates
  rfl

/-- A document whose state is named like the line of a case, with a transition after an
unconditional one. -/
def hiddenPart (written : Text) : Document :=
  ⟨"B:\n\tcase C", [⟨"B:\n\tcase C", "act", [⟨"!!p", "B"⟩, ⟨"", "B"⟩, ⟨written, "B"⟩]⟩]⟩

/-- The machine that the document describes, by the predicate of its last transition. -/
def hiddenMachine (p : Predicate) : Machine :=
  ⟨[⟨"B:\n\tcase C", "act", [⟨⟨"!p", true⟩, "B"⟩, ⟨.always, "B"⟩, ⟨p, "B"⟩]⟩], "B:\n\tcase C"⟩

/-- Two machines that differ behind an unconditional transition have the same implementation. -/
theorem hiddenPart_undetermined :
    (hiddenPart "q").build = .ok (hiddenMachine ⟨"q", false⟩) ∧
    (hiddenPart "!q").build = .ok (hiddenMachine ⟨"q", true⟩) ∧
    hiddenMachine ⟨"q", false⟩ ≠ hiddenMachine ⟨"q", true⟩ ∧
    ({} : SourceLayout).implementation (hiddenMachine ⟨"q", false⟩)
      = ({} : SourceLayout).implementation (hiddenMachine ⟨"q", true⟩) ∧
    (hiddenMachine ⟨"q", false⟩).states.map
        (fun st => (st.name, st.action, Transition.reached st.transitions))
      = (hiddenMachine ⟨"q", true⟩).states.map
        (fun st => (st.name, st.action, Transition.reached st.transitions)) := by
  have hm : (hiddenPart "q").build = .ok (hiddenMachine ⟨"q", false⟩) :=
    eq_ok_of_toOption_eq_some (by decide +kernel)
  have hm' : (hiddenPart "!q").build = .ok (hiddenMachine ⟨"q", true⟩) :=
    eq_ok_of_toOption_eq_some (by decide +kernel)
  have hsame : ({} : SourceLayout).implementation (hiddenMachine ⟨"q", false⟩)
      = ({} : SourceLayout).implementation (hiddenMachine ⟨"q", true⟩) := by
    decide +kernel
  exact ⟨hm, hm', by decide +kernel, hsame, (implementation_determines_machine hm hm' hsame).2.1⟩

end StateForge
