import Mathlib.Data.List.Forall2
import Mathlib.Data.List.Nodup
import StateForge.Document.Load
import StateForge.Proofs.Behaviour
import StateForge.Proofs.Recovery
import StateForge.Proofs.Text.Runes

/-!
# What is known of a decoded machine

`Machine.Sound` collects what the later stages rely on without looking again: names are there, no
two states share one, predicates are in order, and looking a state up by its name gives that state.
`decode_sound` says that decoding gives nothing else, for any bytes in any format.

The checks are spread over the constructors, so the argument is as well. Each constructor has one
lemma that says what it lets through (`Predicate.isProper_of_parse`, `Transition.make_eq_ok_iff`,
`State.make_eq_ok_iff`, `Machine.make_eq_ok`), and building a list of parts succeeds exactly if each
part does (`TransitionDocument.buildAll_eq_ok_iff`, `StateDocument.buildAll_eq_ok_iff`).
-/

set_option autoImplicit false

namespace StateForge

/-! ## Predicates -/

namespace Predicate

/-- The condition that always holds, or a name without white space around it that cannot be taken
for a negation. -/
inductive IsProper : Predicate → Prop
  | always : IsProper always
  | named {p : Predicate} (hname : p.name ≠ []) (htrimmed : p.name.IsTrimmed)
      (hunmarked : p.negated = false → p.name.head? ≠ some negationMark) : IsProper p

theorem isProper_of_parse {written : Text} {p : Predicate} (h : parse written = .ok p) :
    p.IsProper := by
  have hread := isRead_of_parse h
  rw [parse] at h
  split at h
  · cases h
    exact .always
  · rename_i b rest hwritten
    split at h
    · simp only at h
      split at h
      · exact absurd h (by simp)
      · cases h
        exact .named ‹_› (Text.isTrimmed_trim rest) hread.unmarked
    · cases h
      exact .named (List.cons_ne_nil b rest) (hwritten ▸ Text.isTrimmed_trim written) hread.unmarked

/-- Only a name can be negated. -/
theorem IsProper.name_ne {p : Predicate} (h : p.IsProper) (hnegated : p.negated = true) :
    p.name ≠ [] := by
  cases h with
  | always => exact absurd hnegated (by simp [Predicate.always])
  | named hname => exact hname

end Predicate

/-! ## What the constructors let through -/

theorem Transition.make_eq_ok_iff {written target : Text} {t : Transition} :
    make written target = .ok t ↔
      target ≠ [] ∧ Predicate.parse written = .ok t.predicate ∧ t.target = target := by
  rw [make]
  by_cases htarget : target = []
  · simp [htarget]
  · rw [if_neg htarget]
    constructor
    · intro h
      obtain ⟨p, hp, h⟩ := exists_of_bind_eq_ok h
      cases h
      exact ⟨htarget, hp, rfl⟩
    · rintro ⟨-, hp, rfl⟩
      rw [hp]
      rfl

theorem State.make_eq_ok_iff {name action : Text} {ts : List Transition} {st : State} :
    make name action ts = .ok st ↔ name ≠ [] ∧ action ≠ [] ∧ st = ⟨name, action, ts⟩ := by
  rw [make]
  split_ifs with hname haction
  · simp [hname]
  · simp [haction]
  · simp [hname, haction, eq_comm]

theorem Machine.make_eq_ok {start : Text} {states : List State} {m : Machine}
    (h : make start states = .ok m) :
    start ≠ [] ∧ m = ⟨states, start⟩ := by
  rw [make] at h
  split at h
  · exact absurd h (by simp)
  · split at h
    · exact absurd h (by simp)
    · cases h
      exact ⟨‹_›, rfl⟩

/-! ## Lists of parts -/

theorem exists_of_forall₂ {α β : Type} {R : α → β → Prop} {as : List α} {bs : List β}
    (h : List.Forall₂ R as bs) {b : β} (hb : b ∈ bs) : ∃ a, R a b := by
  induction h with
  | nil => exact absurd hb (by simp)
  | cons hr _ ih =>
    rcases List.mem_cons.mp hb with rfl | hb
    · exact ⟨_, hr⟩
    · exact ih hb

/-- **All transitions are built exactly if each one is.** -/
theorem TransitionDocument.buildAll_eq_ok_iff {i j : Nat} {ds : List TransitionDocument}
    {ts : List Transition} :
    buildAll i j ds = .ok ts ↔
      List.Forall₂ (fun d t => Transition.make d.predicate d.state = .ok t) ds ts := by
  induction ds generalizing j ts with
  | nil =>
    rw [buildAll, List.forall₂_nil_left_iff, Except.ok.injEq, eq_comm]
  | cons d ds ih =>
    rw [buildAll, List.forall₂_cons_left_iff]
    constructor
    · intro h
      obtain ⟨t, ht, h⟩ := exists_of_bind_eq_ok h
      obtain ⟨rest, hrest, h⟩ := exists_of_bind_eq_ok h
      cases h
      exact ⟨t, rest, eq_ok_of_mapError_eq_ok ht, ih.mp hrest, rfl⟩
    · rintro ⟨t, rest, ht, hrest, rfl⟩
      rw [ht, ih.mpr hrest]
      rfl

/-- The description gives the state: each of its transitions, in order, and then the state itself.
-/
def StateDocument.Describes (d : StateDocument) (st : State) : Prop :=
  List.Forall₂ (fun d t => Transition.make d.predicate d.state = .ok t)
    d.transitions st.transitions ∧
  State.make d.name d.run st.transitions = .ok st

theorem StateDocument.build_eq_ok_iff {i : Nat} {d : StateDocument} {st : State} :
    d.build i = .ok st ↔ d.Describes st := by
  rw [build, Describes, ← TransitionDocument.buildAll_eq_ok_iff]
  constructor
  · intro h
    obtain ⟨ts, hts, h⟩ := exists_of_bind_eq_ok h
    have hmake := eq_ok_of_mapError_eq_ok h
    obtain ⟨-, -, rfl⟩ := State.make_eq_ok_iff.mp hmake
    exact ⟨hts, hmake⟩
  · rintro ⟨hts, hmake⟩
    rw [hts]
    simp only [bind, Except.bind, hmake, Except.mapError]

/-- **All states are built exactly if each one is.** -/
theorem StateDocument.buildAll_eq_ok_iff {i : Nat} {ds : List StateDocument} {states : List State} :
    buildAll i ds = .ok states ↔ List.Forall₂ Describes ds states := by
  induction ds generalizing i states with
  | nil =>
    rw [buildAll, List.forall₂_nil_left_iff, Except.ok.injEq, eq_comm]
  | cons d ds ih =>
    rw [buildAll, List.forall₂_cons_left_iff]
    constructor
    · intro h
      obtain ⟨st, hst, h⟩ := exists_of_bind_eq_ok h
      obtain ⟨rest, hrest, h⟩ := exists_of_bind_eq_ok h
      cases h
      exact ⟨st, rest, build_eq_ok_iff.mp hst, ih.mp hrest, rfl⟩
    · rintro ⟨st, rest, hst, hrest, rfl⟩
      rw [build_eq_ok_iff.mpr hst, ih.mpr hrest]
      rfl

/-! ## Machines -/

/-- The parts of a state are there, and its predicates are in order. -/
structure State.Sound (st : State) : Prop where
  name_ne : st.name ≠ []
  action_ne : st.action ≠ []
  target_ne : ∀ t ∈ st.transitions, t.target ≠ []
  proper : ∀ t ∈ st.transitions, t.predicate.IsProper
  /-- Only a name can be negated. -/
  negated : ∀ t ∈ st.transitions, t.predicate.negated = true → t.predicate.name ≠ []

namespace Machine

/-- What the later stages rely on. -/
structure Sound (m : Machine) : Prop where
  start_ne : m.start ≠ []
  nodup : m.stateNames.Nodup
  states : ∀ st ∈ m.states, st.Sound
  /-- A state is found by its name. -/
  lookup?_name : ∀ st ∈ m.states, m.lookup? st.name = some st
  /-- Nothing else is found. -/
  lookup?_other : ∀ name, name ∉ m.stateNames → m.lookup? name = none

theorem lookup?_eq_none {m : Machine} {name : Text} (h : name ∉ m.stateNames) :
    m.lookup? name = none := by
  cases hst : m.lookup? name with
  | none => rfl
  | some st =>
    obtain ⟨hmem, rfl⟩ := lookup?_eq_some hst
    exact absurd (List.mem_map_of_mem hmem) h

/-- Where no two states share a name, each is the one that is found. -/
theorem lookup?_name_of_nodup {m : Machine} (h : m.stateNames.Nodup) {st : State}
    (hst : st ∈ m.states) : m.lookup? st.name = some st := by
  obtain ⟨st', hst'⟩ := exists_lookup? (List.mem_map_of_mem hst)
  obtain ⟨hmem, hname⟩ := lookup?_eq_some hst'
  rw [hst', List.inj_on_of_nodup_map h hmem hst hname]

end Machine

theorem StateDocument.Describes.sound {d : StateDocument} {st : State} (h : d.Describes st) :
    st.Sound := by
  obtain ⟨hts, hmake⟩ := h
  obtain ⟨hname, hrun, hst⟩ := State.make_eq_ok_iff.mp hmake
  have hmade : ∀ t ∈ st.transitions, t.target ≠ [] ∧ t.predicate.IsProper := by
    intro t ht
    obtain ⟨d, hd⟩ := exists_of_forall₂ hts ht
    obtain ⟨htarget, hparse, heq⟩ := Transition.make_eq_ok_iff.mp hd
    exact ⟨heq ▸ htarget, Predicate.isProper_of_parse hparse⟩
  exact {
    name_ne := hst ▸ hname
    action_ne := hst ▸ hrun
    target_ne t ht := (hmade t ht).1
    proper t ht := (hmade t ht).2
    negated t ht := (hmade t ht).2.name_ne }

/-- **What a document describes is sound.** -/
theorem Document.sound_of_build {d : Document} {m : Machine} (h : d.build = .ok m) : m.Sound := by
  rw [build] at h
  obtain ⟨states, hstates, h⟩ := exists_of_bind_eq_ok h
  have hmake := eq_ok_of_mapError_eq_ok h
  have hnodup := Machine.nodup_of_make hmake
  obtain ⟨hstart, rfl⟩ := Machine.make_eq_ok hmake
  exact {
    start_ne := hstart
    nodup := hnodup
    states st hst := by
      obtain ⟨d, hd⟩ := exists_of_forall₂ (StateDocument.buildAll_eq_ok_iff.mp hstates) hst
      exact hd.sound
    lookup?_name st hst := Machine.lookup?_name_of_nodup hnodup hst
    lookup?_other name hname := Machine.lookup?_eq_none hname }

/-- Every error about a document says that it is malformed. -/
theorem DocumentError.isOf_malformedDocument (e : DocumentError) :
    e.isOf .malformedDocument = true := by
  cases e <;> rfl

/-- **Whatever the bytes and the format, decoding fails as a malformed document, or it gives a sound
machine.** -/
theorem decode_sound (format : Format) (s : Text) :
    (∃ e, Machine.decode format s = .error e ∧ e.isOf .malformedDocument = true ∧
      ∀ w, ("malformed state machine document: " : Text) <+: e.message w) ∨
    ∃ m, Machine.decode format s = .ok m ∧ m.Sound := by
  cases hdecode : Machine.decode format s with
  | error e =>
    exact .inl ⟨e, rfl, e.isOf_malformedDocument, fun w => List.prefix_append _ _⟩
  | ok m =>
    rw [Machine.decode] at hdecode
    obtain ⟨d, -, hbuild⟩ := exists_of_bind_eq_ok hdecode
    exact .inr ⟨m, rfl, Document.sound_of_build (eq_ok_of_mapError_eq_ok hbuild)⟩

end StateForge
