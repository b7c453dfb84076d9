import Mathlib.Computability.RegularExpressions
import StateForge.Machine.Validation

/-!
# What validation reports

`Machine.violations` walks over a machine and notes what is wrong. Here is what it should note, said
without a walk, and the proof that the two agree.

* `identifierPattern` is the form of identifiers as a regular expression over bytes, and
  `Text.IsUsable` what a name has to be.
* `Site` is a place in a machine where one thing can be wrong. `Machine.Wrong m site v` says that it
  is, and how it is described. A place has at most one description; two places can have the same
  one, since a description names a state by its name and nothing here forbids two states of one
  name.
* `ListsExactly` says that a list of violations has one entry for each place where something is
  wrong, in the order of the places. It is put together like the walk: from single tests, for the
  transitions of a state, for the states of a machine.

The list is empty exactly for the machines that are well-formed, and the kinds of its entries are
the kinds of what is wrong.
-/

set_option autoImplicit false

namespace StateForge

/-! ## Names -/

/-- One byte out of a list. -/
def oneOf (bytes : List UInt8) : RegularExpression UInt8 :=
  bytes.foldr (fun b pattern => .char b + pattern) 0

/-- The letters, with the underscore. -/
def letters : Text :=
  "ABCDEFGHIJKLMNOPQRSTUVWXYZabcdefghijklmnopqrstuvwxyz_"

/-- The decimal digits. -/
def digits : Text :=
  "0123456789"

/-- The form of an identifier: a letter or underscore, and any number of letters, digits and
underscores. -/
def identifierPattern : RegularExpression UInt8 :=
  oneOf letters * (oneOf (letters ++ digits)).star

namespace Text

/-- A text that can be used as a name: it has the form of an identifier and is none of the
keywords. -/
structure IsUsable (w : Text) : Prop where
  form : w ∈ identifierPattern.matches'
  unreserved : w ∉ reservedWords.map ofString

/-- Why a text cannot be used as a name. -/
inductive HasFault (w : Text) : IdentifierFault → Prop
  | malformed (h : w ∉ identifierPattern.matches') : HasFault w .malformed
  | reserved (hform : w ∈ identifierPattern.matches') (h : w ∈ reservedWords.map ofString) :
      HasFault w .reserved

end Text

theorem mem_oneOf {bytes : List UInt8} {w : Text} :
    w ∈ (oneOf bytes).matches' ↔ ∃ b ∈ bytes, w = [b] := by
  induction bytes with
  | nil => simp [oneOf, RegularExpression.matches'_zero]
  | cons b rest ih =>
    have hchar : w ∈ (RegularExpression.char b).matches' ↔ w = [b] := Iff.rfl
    rw [oneOf, List.foldr_cons, RegularExpression.matches'_add, Language.mem_add, ← oneOf, ih,
      hchar]
    simp

theorem mem_star_oneOf {bytes : List UInt8} {w : Text} :
    w ∈ (oneOf bytes).star.matches' ↔ ∀ b ∈ w, b ∈ bytes := by
  rw [RegularExpression.matches'_star, Language.mem_kstar]
  constructor
  · rintro ⟨parts, rfl, hparts⟩ b hb
    obtain ⟨part, hpart, hb⟩ := List.mem_flatten.mp hb
    obtain ⟨b', hb', rfl⟩ := mem_oneOf.mp (hparts part hpart)
    rwa [List.mem_singleton.mp hb]
  · intro h
    refine ⟨w.map fun b => [b], by simp [← List.flatMap_def], fun part hpart => ?_⟩
    obtain ⟨b, hb, rfl⟩ := List.mem_map.mp hpart
    exact mem_oneOf.mpr ⟨b, h b hb, rfl⟩

theorem isIdentifierStart_iff (b : UInt8) : isIdentifierStart b = true ↔ b ∈ letters := by
  have hall : ∀ n : Fin 256,
      isIdentifierStart (UInt8.ofFin n) = true ↔ UInt8.ofFin n ∈ letters := by
    decide +kernel
  exact hall b.toFin

theorem isIdentifierPart_iff (b : UInt8) :
    isIdentifierPart b = true ↔ b ∈ letters ++ digits := by
  have hall : ∀ n : Fin 256,
      isIdentifierPart (UInt8.ofFin n) = true ↔ UInt8.ofFin n ∈ letters ++ digits := by
    decide +kernel
  exact hall b.toFin

/-- **The byte-by-byte test accepts what the pattern matches.** -/
theorem Text.isIdentifier_iff {w : Text} :
    w.isIdentifier = true ↔ w ∈ identifierPattern.matches' := by
  rw [identifierPattern, RegularExpression.matches'_mul, Language.mem_mul]
  simp only [mem_oneOf, mem_star_oneOf]
  cases w with
  | nil => simp [isIdentifier]
  | cons b rest =>
    rw [isIdentifier, Bool.and_eq_true, List.all_eq_true, isIdentifierStart_iff]
    simp only [isIdentifierPart_iff]
    constructor
    · rintro ⟨hb, hrest⟩
      exact ⟨[b], ⟨b, hb, rfl⟩, rest, hrest, rfl⟩
    · rintro ⟨_, ⟨b', hb', rfl⟩, rest', hrest', heq⟩
      cases heq
      exact ⟨hb', hrest'⟩

theorem Text.isReserved_iff {w : Text} :
    w.isReserved = true ↔ w ∈ reservedWords.map ofString := by
  simp [isReserved, List.any_eq_true]

theorem Text.identifierFault?_eq_some_iff {w : Text} {fault : IdentifierFault} :
    w.identifierFault? = some fault ↔ w.HasFault fault := by
  rw [identifierFault?]
  by_cases hform : w ∈ identifierPattern.matches'
  · rw [if_neg (by simp [isIdentifier_iff.mpr hform])]
    by_cases hres : w ∈ reservedWords.map ofString
    · rw [if_pos (isReserved_iff.mpr hres)]
      constructor
      · rintro ⟨⟩
        exact .reserved hform hres
      · rintro (h | _)
        · exact absurd hform h
        · rfl
    · rw [if_neg (fun h => hres (isReserved_iff.mp h))]
      constructor
      · rintro ⟨⟩
      · rintro (h | ⟨-, h⟩)
        · exact absurd hform h
        · exact absurd h hres
  · rw [if_pos (by simpa using fun h => hform (isIdentifier_iff.mp h))]
    constructor
    · rintro ⟨⟩
      exact .malformed hform
    · rintro (_ | ⟨h, -⟩)
      · rfl
      · exact absurd h hform

theorem Text.HasFault.not_isUsable {w : Text} {fault : IdentifierFault} (h : w.HasFault fault) :
    ¬ w.IsUsable := by
  rintro ⟨hform, hunreserved⟩
  rcases h with h | ⟨-, h⟩
  · exact h hform
  · exact hunreserved h

theorem Text.exists_fault_of_not_isUsable {w : Text} (h : ¬ w.IsUsable) :
    ∃ fault, w.HasFault fault := by
  by_cases hform : w ∈ identifierPattern.matches'
  · by_cases hres : w ∈ reservedWords.map ofString
    · exact ⟨_, .reserved hform hres⟩
    · exact absurd ⟨hform, hres⟩ h
  · exact ⟨_, .malformed hform⟩

/-! ## Places in a machine -/

/-- A place where one thing can be wrong: states and transitions are given by their indices. -/
inductive Site where
  | start
  | name (state : Nat)
  | action (state : Nat)
  /-- Can the transition be reached? -/
  | reach (state transition : Nat)
  | target (state transition : Nat)
  | predicate (state transition : Nat)

namespace Site

/-- The place in a list of lists, by which places are ordered. -/
def position : Site → List Nat
  | start => []
  | name i => [i, 0]
  | action i => [i, 1]
  | reach i j => [i, 2, j, 0]
  | target i j => [i, 2, j, 1]
  | predicate i j => [i, 2, j, 2]

/-- The start comes first, then the states in order: the name of a state, its action, and its
transitions in order. -/
def Before (s s' : Site) : Prop :=
  s.position < s'.position

end Site

/-- The first transition in the list that is always taken has the index `k`. -/
structure IsFirstUnconditional (ts : List Transition) (k : Nat) : Prop where
  here : ∃ t, ts[k]? = some t ∧ t.predicate.name = []
  before : ∀ i < k, ∀ t, ts[i]? = some t → t.predicate.name ≠ []

/-- What is wrong with the transition at `j` of the state at `i`. `blocked k` says that an earlier
transition, at `k`, keeps it from being reached. -/
inductive Transition.Wrong (declared : List Text) (state : Text) (i j : Nat) (blocked : Nat → Prop)
    (t : Transition) : Site → Violation → Prop
  | unreachable {k : Nat} (h : blocked k) : Wrong declared state i j blocked t (.reach i j)
      (.unreachable state j k)
  | target (h : t.target ∉ declared) : Wrong declared state i j blocked t (.target i j)
      (.unknownTarget state j t.target)
  | predicate {fault : IdentifierFault} (hname : t.predicate.name ≠ [])
      (h : t.predicate.name.HasFault fault) : Wrong declared state i j blocked t (.predicate i j)
      (.predicate state j t.predicate fault)

/-- What is wrong with the state at `i`. A transition is kept from being reached by the first one
that is always taken. -/
inductive State.Wrong (declared : List Text) (i : Nat) (st : State) : Site → Violation → Prop
  | name {fault : IdentifierFault} (h : st.name.HasFault fault) :
      Wrong declared i st (.name i) (.stateName st.name fault)
  | action {fault : IdentifierFault} (h : st.action.HasFault fault) :
      Wrong declared i st (.action i) (.action st.name st.action fault)
  | transition {j : Nat} {t : Transition} {s : Site} {v : Violation}
      (ht : st.transitions[j]? = some t)
      (h : t.Wrong declared st.name i j (fun k => k < j ∧ IsFirstUnconditional st.transitions k)
        s v) :
      Wrong declared i st s v

namespace Machine

/-- What is wrong with a machine, and where. -/
inductive Wrong (m : Machine) : Site → Violation → Prop
  | start (h : m.start ∉ m.stateNames) : Wrong m .start (.unknownStart m.start)
  | state {i : Nat} {st : State} {s : Site} {v : Violation} (hst : m.states[i]? = some st)
      (h : st.Wrong m.stateNames i s v) : Wrong m s v

/-- A machine from which code can be generated that compiles, as far as each name and reference is
concerned. -/
structure WellFormed (m : Machine) : Prop where
  start : m.start ∈ m.stateNames
  name : ∀ st ∈ m.states, st.name.IsUsable
  action : ∀ st ∈ m.states, st.action.IsUsable
  target : ∀ st ∈ m.states, ∀ t ∈ st.transitions, t.target ∈ m.stateNames
  predicate : ∀ st ∈ m.states, ∀ t ∈ st.transitions, t.predicate.name ≠ [] →
    t.predicate.name.IsUsable
  /-- Only the last transition of a state may be unconditional. -/
  last : ∀ st ∈ m.states, ∀ j t, st.transitions[j]? = some t → t.predicate.name = [] →
    j + 1 = st.transitions.length

end Machine

/-! ## Lists of what is wrong -/

/-- The list has one entry for each place where something is wrong, in the order of the places. -/
def ListsExactly (wrong : Site → Violation → Prop) (violations : List Violation) : Prop :=
  ∃ found : List (Site × Violation), found.map Prod.snd = violations ∧
    found.Pairwise (fun a b => a.1.Before b.1) ∧ ∀ s v, (s, v) ∈ found ↔ wrong s v

namespace ListsExactly

variable {wrong wrong' : Site → Violation → Prop} {vs vs' : List Violation}

theorem congr (h : ListsExactly wrong vs) (hiff : ∀ s v, wrong s v ↔ wrong' s v) :
    ListsExactly wrong' vs := by
  obtain ⟨found, hmap, hsorted, hmem⟩ := h
  exact ⟨found, hmap, hsorted, fun s v => (hmem s v).trans (hiff s v)⟩

theorem nil (h : ∀ s v, ¬ wrong s v) : ListsExactly wrong [] :=
  ⟨[], rfl, .nil, fun s v => by simp [h s v]⟩

theorem single (site : Site) (v : Violation) :
    ListsExactly (fun s v' => s = site ∧ v' = v) [v] :=
  ⟨[(site, v)], rfl, List.pairwise_singleton _ _, fun s v' => by simp⟩

theorem append (h : ListsExactly wrong vs) (h' : ListsExactly wrong' vs')
    (hbefore : ∀ s v s' v', wrong s v → wrong' s' v' → s.Before s') :
    ListsExactly (fun s v => wrong s v ∨ wrong' s v) (vs ++ vs') := by
  obtain ⟨found, rfl, hsorted, hmem⟩ := h
  obtain ⟨found', rfl, hsorted', hmem'⟩ := h'
  refine ⟨found ++ found', List.map_append, ?_, fun s v => ?_⟩
  · refine List.pairwise_append.mpr ⟨hsorted, hsorted', fun a ha b hb => ?_⟩
    exact hbefore a.1 a.2 b.1 b.2 ((hmem a.1 a.2).mp ha) ((hmem' b.1 b.2).mp hb)
  · rw [List.mem_append, hmem, hmem']

/-- Nothing is noted where a condition holds. -/
theorem guarded {p : Prop} [Decidable p] (h : ListsExactly wrong vs) :
    ListsExactly (fun s v => ¬ p ∧ wrong s v) (if p then [] else vs) := by
  by_cases hp : p
  · rw [if_pos hp]
    exact .nil fun s v hwrong => hwrong.1 hp
  · rw [if_neg hp]
    exact h.congr fun s v => by simp [hp]

/-- One note is made for something that may be there. -/
theorem option {α : Type} (site : Site) (note : α → Violation) (found? : Option α)
    (hsome : ∀ a, found? = some a → vs = [note a]) (hnone : found? = none → vs = []) :
    ListsExactly (fun s v => s = site ∧ ∃ a, found? = some a ∧ v = note a) vs := by
  cases hfound : found? with
  | none =>
    rw [hnone hfound]
    exact .nil fun s v => by simp
  | some a =>
    rw [hsome a hfound]
    exact (single site (note a)).congr fun s v => by simp

theorem eq_nil_iff (h : ListsExactly wrong vs) : vs = [] ↔ ∀ s v, ¬ wrong s v := by
  obtain ⟨found, rfl, -, hmem⟩ := h
  rw [List.map_eq_nil_iff, List.eq_nil_iff_forall_not_mem]
  exact ⟨fun hnone s v hwrong => hnone (s, v) ((hmem s v).mpr hwrong),
    fun hnone x hx => hnone x.1 x.2 ((hmem x.1 x.2).mp hx)⟩

theorem mem_iff (h : ListsExactly wrong vs) {v : Violation} : v ∈ vs ↔ ∃ s, wrong s v := by
  obtain ⟨found, rfl, -, hmem⟩ := h
  constructor
  · intro hv
    obtain ⟨x, hx, rfl⟩ := List.mem_map.mp hv
    exact ⟨x.1, (hmem x.1 x.2).mp hx⟩
  · rintro ⟨s, hs⟩
    exact List.mem_map.mpr ⟨(s, v), (hmem s v).mpr hs, rfl⟩

end ListsExactly

/-! ## Along the machine -/

theorem listsExactly_fault (site : Site) (note : IdentifierFault → Violation) (w : Text)
    {vs : List Violation} (hsome : ∀ fault, w.identifierFault? = some fault → vs = [note fault])
    (hnone : w.identifierFault? = none → vs = []) :
    ListsExactly (fun s v => s = site ∧ ∃ fault, w.HasFault fault ∧ v = note fault) vs := by
  refine (ListsExactly.option site note w.identifierFault? hsome hnone).congr fun s v => ?_
  simp only [Text.identifierFault?_eq_some_iff]

theorem Transition.isUnconditional_iff {t : Transition} :
    t.isUnconditional = true ↔ t.predicate.name = [] := by
  simp [isUnconditional, Predicate.isEmpty]

/-- The three tests of a transition. -/
theorem Transition.listsExactly_violations (declared : List Text) (state : Text) (i j : Nat)
    (blocker? : Option Nat) (t : Transition) :
    ListsExactly (t.Wrong declared state i j fun k => blocker? = some k)
      (t.violations declared state j blocker?) := by
  rw [violations.eq_def]
  refine ListsExactly.congr (.append (.append
    (.option (.reach i j) (.unreachable state j) blocker? (fun k h => by rw [h])
      (fun h => by rw [h]))
    (.guarded (.single (.target i j) (.unknownTarget state j t.target))) ?_)
    (.guarded (listsExactly_fault (.predicate i j) (.predicate state j t.predicate)
      t.predicate.name (fun fault h => by rw [h]) (fun h => by rw [h]))) ?_) fun s v => ⟨?_, ?_⟩
  · rintro s v s' v' ⟨rfl, -⟩ ⟨-, rfl, -⟩
    simp [Site.Before, Site.position, List.cons_lt_cons_iff]
  · rintro s v s' v' (⟨rfl, -⟩ | ⟨-, rfl, -⟩) ⟨-, rfl, -⟩
    all_goals simp [Site.Before, Site.position, List.cons_lt_cons_iff]
  · rintro ((⟨rfl, k, hk, rfl⟩ | ⟨htarget, rfl, rfl⟩) | ⟨hcond, rfl, fault, hfault, rfl⟩)
    · exact .unreachable hk
    · exact .target htarget
    · exact .predicate (fun hname => hcond (isUnconditional_iff.mpr hname)) hfault
  · rintro (hk | htarget | ⟨hname, hfault⟩)
    · exact .inl (.inl ⟨rfl, _, hk, rfl⟩)
    · exact .inl (.inr ⟨htarget, rfl, rfl⟩)
    · exact .inr ⟨fun hu => hname (isUnconditional_iff.mp hu), rfl, _, hfault, rfl⟩

/-- Everything that is wrong with a transition is wrong at that transition. -/
theorem Transition.Wrong.site {declared : List Text} {state : Text} {i j : Nat}
    {blocked : Nat → Prop} {t : Transition} {s : Site} {v : Violation}
    (h : t.Wrong declared state i j blocked s v) : ∃ n, s.position = [i, 2, j, n] := by
  cases h with
  | unreachable => exact ⟨0, rfl⟩
  | target => exact ⟨1, rfl⟩
  | predicate => exact ⟨2, rfl⟩

/-- Everything that is wrong with a state is wrong at that state. -/
theorem State.Wrong.site {declared : List Text} {i : Nat} {st : State} {s : Site} {v : Violation}
    (h : st.Wrong declared i s v) : ∃ rest, s.position = i :: rest := by
  cases h with
  | name => exact ⟨[0], rfl⟩
  | action => exact ⟨[1], rfl⟩
  | transition _ h =>
    obtain ⟨n, hn⟩ := h.site
    exact ⟨_, hn⟩

/-- What holds of an item of a list holds of the first item or of one after it. -/
theorem exists_getElem?_cons {α : Type} {a : α} {l : List α} {P : Nat → α → Prop} :
    (∃ j b, (a :: l)[j]? = some b ∧ P j b) ↔ P 0 a ∨ ∃ j b, l[j]? = some b ∧ P (j + 1) b := by
  constructor
  · rintro ⟨j, b, hb, hP⟩
    cases j with
    | zero =>
      rw [List.getElem?_cons_zero] at hb
      cases hb
      exact .inl hP
    | succ j => exact .inr ⟨j, b, by simpa using hb, hP⟩
  · rintro (hP | ⟨j, b, hb, hP⟩)
    · exact ⟨0, a, by simp, hP⟩
    · exact ⟨j + 1, b, by simpa using hb, hP⟩

namespace State

/-- The unconditional transition that comes before the one at `j` in the list, counted from `index`:
the one that was met already, or else the first in the list. -/
def blockerBefore (blocker? : Option Nat) (index : Nat) (ts : List Transition) (j : Nat) :
    Option Nat :=
  blocker?.or (((ts.take j).findIdx? Transition.isUnconditional).map (index + ·))

theorem blockerBefore_cons_succ (blocker? : Option Nat) (index : Nat) (t : Transition)
    (ts : List Transition) (j : Nat) :
    blockerBefore blocker? index (t :: ts) (j + 1)
      = blockerBefore (blocker?.or (if t.isUnconditional then some index else none)) (index + 1)
          ts j := by
  rw [blockerBefore, blockerBefore, List.take_succ_cons, List.findIdx?_cons]
  cases blocker? with
  | some k => rfl
  | none =>
    by_cases hu : t.isUnconditional = true
    · simp [hu]
    · simp [hu, Function.comp_def, Nat.add_assoc, Nat.add_comm 1]

/-- The transitions from `index` on, where an unconditional one was met before at `blocker?`, if
any. -/
theorem listsExactly_transitionViolations (declared : List Text) (state : Text) (i index : Nat)
    (blocker? : Option Nat) (ts : List Transition) :
    ListsExactly
      (fun s v => ∃ j, ∃ t : Transition, ts[j]? = some t ∧
        t.Wrong declared state i (index + j) (fun k => blockerBefore blocker? index ts j = some k)
          s v)
      (transitionViolations declared state index blocker? ts) := by
  induction ts generalizing index blocker? with
  | nil => exact .nil fun s v => by simp
  | cons t ts ih =>
    have hfirst := t.listsExactly_violations declared state i index blocker?
    have hrest := ih (index + 1) (blocker?.or (if t.isUnconditional then some index else none))
    refine (hfirst.append hrest ?_).congr fun s v => ?_
    · rintro s v s' v' h ⟨j, t', -, h'⟩
      obtain ⟨n, hn⟩ := h.site
      obtain ⟨n', hn'⟩ := h'.site
      have hlt : index < index + 1 + j := by omega
      rw [Site.Before, hn, hn']
      simp [List.cons_lt_cons_iff, hlt]
    · rw [exists_getElem?_cons]
      simp only [blockerBefore_cons_succ, Nat.add_zero, Nat.add_assoc, Nat.add_comm 1]
      simp [blockerBefore]

theorem blockerBefore_eq_some_iff {ts : List Transition} {j k : Nat} :
    blockerBefore none 0 ts j = some k ↔ k < j ∧ IsFirstUnconditional ts k := by
  have hsearch : blockerBefore none 0 ts j = (ts.take j).findIdx? Transition.isUnconditional := by
    simp [blockerBefore]
  rw [hsearch, List.findIdx?_eq_some_iff_getElem]
  simp only [List.length_take, List.getElem_take, Transition.isUnconditional_iff]
  constructor
  · rintro ⟨hk, hhere, hbefore⟩
    refine ⟨by omega, ⟨_, List.getElem?_eq_getElem (by omega), hhere⟩, fun i hi t ht => ?_⟩
    obtain ⟨_, rfl⟩ := List.getElem?_eq_some_iff.mp ht
    exact hbefore i hi
  · rintro ⟨hkj, ⟨t, ht, hname⟩, hbefore⟩
    obtain ⟨hk, rfl⟩ := List.getElem?_eq_some_iff.mp ht
    exact ⟨by omega, hname, fun i hi => hbefore i hi _ (List.getElem?_eq_getElem (by omega))⟩

theorem listsExactly_violations (declared : List Text) (i : Nat) (st : State) :
    ListsExactly (st.Wrong declared i) (st.violations declared) := by
  rw [violations]
  refine ListsExactly.congr (.append (.append
    (listsExactly_fault (.name i) (.stateName st.name) st.name (fun fault h => by rw [h])
      (fun h => by rw [h]))
    (listsExactly_fault (.action i) (.action st.name st.action) st.action
      (fun fault h => by rw [h]) (fun h => by rw [h])) ?_)
    (listsExactly_transitionViolations declared st.name i 0 none st.transitions) ?_)
    fun s v => ⟨?_, ?_⟩
  · rintro s v s' v' ⟨rfl, -⟩ ⟨rfl, -⟩
    simp [Site.Before, Site.position, List.cons_lt_cons_iff]
  · rintro s v s' v' (⟨rfl, -⟩ | ⟨rfl, -⟩) ⟨j, t, -, h⟩
    all_goals
      obtain ⟨n, hn⟩ := h.site
      rw [Site.Before, hn]
      simp [Site.position, List.cons_lt_cons_iff]
  · rintro ((⟨rfl, fault, hfault, rfl⟩ | ⟨rfl, fault, hfault, rfl⟩) | ⟨j, t, ht, h⟩)
    · exact .name hfault
    · exact .action hfault
    · simp only [blockerBefore_eq_some_iff, Nat.zero_add] at h
      exact .transition ht h
  · rintro (hfault | hfault | ⟨ht, h⟩)
    · exact .inl (.inl ⟨rfl, _, hfault, rfl⟩)
    · exact .inl (.inr ⟨rfl, _, hfault, rfl⟩)
    · refine .inr ⟨_, _, ht, ?_⟩
      simpa only [blockerBefore_eq_some_iff, Nat.zero_add] using h

end State

namespace Machine

theorem listsExactly_states (declared : List Text) (index : Nat) (states : List State) :
    ListsExactly
      (fun s v => ∃ i, ∃ st : State, states[i]? = some st ∧ st.Wrong declared (index + i) s v)
      (states.flatMap (State.violations declared)) := by
  induction states generalizing index with
  | nil => exact .nil fun s v => by simp
  | cons st states ih =>
    rw [List.flatMap_cons]
    refine ((st.listsExactly_violations declared index).append (ih (index + 1)) ?_).congr
      fun s v => ?_
    · rintro s v s' v' h ⟨i, st', -, h'⟩
      obtain ⟨rest, hrest⟩ := h.site
      obtain ⟨rest', hrest'⟩ := h'.site
      rw [Site.Before, hrest, hrest', List.cons_lt_cons_iff]
      omega
    · rw [exists_getElem?_cons]
      simp only [Nat.add_zero, Nat.add_assoc, Nat.add_comm 1]

/-- **Validation reports what is wrong**: everything, once, and in order. -/
theorem listsExactly_violations (m : Machine) : ListsExactly m.Wrong m.violations := by
  rw [violations]
  refine ListsExactly.congr (.append (.guarded (.single .start (.unknownStart m.start)))
    (listsExactly_states m.stateNames 0 m.states) ?_) fun s v => ⟨?_, ?_⟩
  · rintro s v s' v' ⟨-, rfl, -⟩ ⟨i, st, -, h⟩
    obtain ⟨rest, hrest⟩ := h.site
    rw [Site.Before, hrest]
    exact List.nil_lt_cons _ _
  · rintro (⟨h, rfl, rfl⟩ | ⟨i, st, hst, h⟩)
    · exact .start h
    · exact .state hst (Nat.zero_add i ▸ h)
  · rintro (h | ⟨hst, h⟩)
    · exact .inl ⟨h, rfl, rfl⟩
    · exact .inr ⟨_, _, hst, by rwa [Nat.zero_add]⟩

end Machine

/-! ## Kinds of problems -/

/-- In a list of transitions of which one is unconditional, there is a first such. -/
theorem exists_isFirstUnconditional {ts : List Transition} {j : Nat} {t : Transition}
    (ht : ts[j]? = some t) (hname : t.predicate.name = []) :
    ∃ k ≤ j, IsFirstUnconditional ts k := by
  induction j using Nat.strong_induction_on generalizing t with
  | _ j ih =>
    by_cases hearlier : ∃ i < j, ∃ t', ts[i]? = some t' ∧ t'.predicate.name = []
    · obtain ⟨i, hi, t', ht', hname'⟩ := hearlier
      obtain ⟨k, hk, hfirst⟩ := ih i hi ht' hname'
      exact ⟨k, by omega, hfirst⟩
    · exact ⟨j, le_rfl, ⟨t, ht, hname⟩, fun i hi t' ht' hname' =>
        hearlier ⟨i, hi, t', ht', hname'⟩⟩

namespace Machine

/-- Something of the given kind is wrong somewhere in the machine. -/
def HasProblem (m : Machine) : ViolationKind → Prop
  | .unknownState =>
    m.start ∉ m.stateNames ∨ ∃ st ∈ m.states, ∃ t ∈ st.transitions, t.target ∉ m.stateNames
  | .invalidIdentifier =>
    ∃ st ∈ m.states, ¬ st.name.IsUsable ∨ ¬ st.action.IsUsable ∨
      ∃ t ∈ st.transitions, t.predicate.name ≠ [] ∧ ¬ t.predicate.name.IsUsable
  | .unreachableTransition =>
    ∃ st ∈ m.states, ∃ j t, st.transitions[j]? = some t ∧ t.predicate.name = [] ∧
      j + 1 < st.transitions.length

/-- An unconditional transition that is not the last one makes the one after it unreachable. -/
theorem exists_wrong_of_unreachable {m : Machine} {st : State} (hst : st ∈ m.states) {j : Nat}
    {t : Transition} (ht : st.transitions[j]? = some t) (hname : t.predicate.name = [])
    (hmore : j + 1 < st.transitions.length) :
    ∃ s v, m.Wrong s v ∧ v.kind = .unreachableTransition := by
  obtain ⟨i, hi⟩ := List.mem_iff_getElem?.mp hst
  obtain ⟨k, hk, hfirst⟩ := exists_isFirstUnconditional ht hname
  have hnext : st.transitions[j + 1]? = some (st.transitions[j + 1]) :=
    List.getElem?_eq_getElem hmore
  exact ⟨_, _, .state hi (.transition hnext (.unreachable ⟨by omega, hfirst⟩)), rfl⟩

theorem exists_wrong_of_hasProblem {m : Machine} {kind : ViolationKind} (h : m.HasProblem kind) :
    ∃ s v, m.Wrong s v ∧ v.kind = kind := by
  cases kind with
  | unknownState =>
    rcases h with h | ⟨st, hst, t, ht, h⟩
    · exact ⟨_, _, .start h, rfl⟩
    · obtain ⟨i, hi⟩ := List.mem_iff_getElem?.mp hst
      obtain ⟨j, hj⟩ := List.mem_iff_getElem?.mp ht
      exact ⟨_, _, .state hi (.transition hj (.target h)), rfl⟩
  | invalidIdentifier =>
    obtain ⟨st, hst, h⟩ := h
    obtain ⟨i, hi⟩ := List.mem_iff_getElem?.mp hst
    rcases h with h | h | ⟨t, ht, hname, h⟩
    · obtain ⟨fault, hfault⟩ := Text.exists_fault_of_not_isUsable h
      exact ⟨_, _, .state hi (.name hfault), rfl⟩
    · obtain ⟨fault, hfault⟩ := Text.exists_fault_of_not_isUsable h
      exact ⟨_, _, .state hi (.action hfault), rfl⟩
    · obtain ⟨fault, hfault⟩ := Text.exists_fault_of_not_isUsable h
      obtain ⟨j, hj⟩ := List.mem_iff_getElem?.mp ht
      exact ⟨_, _, .state hi (.transition hj (.predicate hname hfault)), rfl⟩
  | unreachableTransition =>
    obtain ⟨st, hst, j, t, ht, hname, hmore⟩ := h
    exact exists_wrong_of_unreachable hst ht hname hmore

theorem hasProblem_of_wrong {m : Machine} {s : Site} {v : Violation} (h : m.Wrong s v) :
    m.HasProblem v.kind := by
  rcases h with h | ⟨hst, h⟩
  · exact .inl h
  · have hmem := List.mem_of_getElem? hst
    rcases h with h | h | ⟨ht, h⟩
    · exact ⟨_, hmem, .inl h.not_isUsable⟩
    · exact ⟨_, hmem, .inr (.inl h.not_isUsable)⟩
    · have htmem := List.mem_of_getElem? ht
      rcases h with ⟨hk, hfirst⟩ | h | ⟨hname, h⟩
      · obtain ⟨t, ht', hname⟩ := hfirst.here
        obtain ⟨hj, -⟩ := List.getElem?_eq_some_iff.mp ht
        exact ⟨_, hmem, _, t, ht', hname, by omega⟩
      · exact .inr ⟨_, hmem, _, htmem, h⟩
      · exact ⟨_, hmem, .inr (.inr ⟨_, htmem, hname, h.not_isUsable⟩)⟩

theorem reports_iff (m : Machine) (kind : ViolationKind) :
    Violation.reports kind m.violations = true ↔ m.HasProblem kind := by
  rw [Violation.reports, List.any_eq_true]
  simp only [m.listsExactly_violations.mem_iff, beq_iff_eq]
  constructor
  · rintro ⟨v, ⟨s, hwrong⟩, rfl⟩
    exact hasProblem_of_wrong hwrong
  · intro h
    obtain ⟨s, v, hwrong, hkind⟩ := exists_wrong_of_hasProblem h
    exact ⟨v, ⟨s, hwrong⟩, hkind⟩

/-- A machine is well-formed if it has no problem of any kind. -/
theorem wellFormed_iff {m : Machine} : m.WellFormed ↔ ∀ kind, ¬ m.HasProblem kind := by
  constructor
  · intro hm kind h
    cases kind with
    | unknownState =>
      rcases h with h | ⟨st, hst, t, ht, h⟩
      · exact h hm.start
      · exact h (hm.target st hst t ht)
    | invalidIdentifier =>
      obtain ⟨st, hst, h | h | ⟨t, ht, hname, h⟩⟩ := h
      · exact h (hm.name st hst)
      · exact h (hm.action st hst)
      · exact h (hm.predicate st hst t ht hname)
    | unreachableTransition =>
      obtain ⟨st, hst, j, t, ht, hname, hmore⟩ := h
      have hlast := hm.last st hst j t ht hname
      omega
  · intro h
    have hstates := h .unknownState
    have hnames := h .invalidIdentifier
    have hreach := h .unreachableTransition
    simp only [HasProblem, not_or, not_exists, not_and, Decidable.not_not] at hstates hreach
    refine
      { start := hstates.1
        name := fun st hst => Classical.byContradiction fun hst' => hnames ⟨st, hst, .inl hst'⟩
        action := fun st hst => Classical.byContradiction fun hst' =>
          hnames ⟨st, hst, .inr (.inl hst')⟩
        target := hstates.2
        predicate := fun st hst t ht hname => Classical.byContradiction fun ht' =>
          hnames ⟨st, hst, .inr (.inr ⟨t, ht, hname, ht'⟩)⟩
        last := fun st hst j t ht hname => ?_ }
    obtain ⟨hj, -⟩ := List.getElem?_eq_some_iff.mp ht
    have hnot := hreach st hst j t ht hname
    omega

theorem violations_eq_nil_iff (m : Machine) : m.violations = [] ↔ m.WellFormed := by
  rw [m.listsExactly_violations.eq_nil_iff, wellFormed_iff]
  constructor
  · intro hnone kind h
    obtain ⟨s, v, hwrong, -⟩ := exists_wrong_of_hasProblem h
    exact hnone s v hwrong
  · exact fun hnone s v hwrong => hnone v.kind (hasProblem_of_wrong hwrong)

end Machine

/-- **Validation is sound and complete.** It reports nothing exactly for the machines that are
well-formed. Otherwise it reports each thing that is wrong once, in order, and callers that ask for
a kind of problem are told of it exactly if the machine has such a problem. -/
theorem validation_exact (m : Machine) :
    (m.violations = [] ↔ m.WellFormed) ∧ ListsExactly m.Wrong m.violations ∧
      ∀ kind, Violation.reports kind m.violations = true ↔ m.HasProblem kind :=
  ⟨m.violations_eq_nil_iff, m.listsExactly_violations, m.reports_iff⟩

-- two unconditional transitions, of which the first is negated, and faults behind them
example : Machine.violations
    ⟨[⟨"A", "if", [⟨⟨[], true⟩, "A"⟩, ⟨⟨[], false⟩, "B"⟩, ⟨⟨"1x", true⟩, "A"⟩]⟩], "Z"⟩
      = [.unknownStart "Z", .action "A" "if" .reserved, .unreachable "A" 1 0,
        .unknownTarget "A" 1 "B", .unreachable "A" 2 0,
        .predicate "A" 2 ⟨"1x", true⟩ .malformed] := by
  decide +kernel

end StateForge
