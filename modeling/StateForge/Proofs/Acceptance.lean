import StateForge.Document.Basic
import StateForge.Proofs.Validation

/-!
# What is known about an accepted machine

A machine passes two gates before code is generated from it: it is put together, which rules out two
states of one name, and it is validated, which rules out names that C would not take and references
to states that are not there. This file says what the two gates establish, as facts that later
proofs can use without looking at how either of them searches.

* `Machine.Made` says that a machine came out of one of its two constructors, and `Made.nodup` is
  the one fact about it that code generation relies on.
* A machine without violations is well-formed (`Machine.violations_eq_nil_iff`). The lemmas about
  `Text.IsUsable` and `Machine.WellFormed` say what that gives for the tests that code generation
  makes.
-/

set_option autoImplicit false

namespace StateForge

/-! ## Computations that may fail -/

/-- A computation in two parts succeeds only if both parts do. -/
theorem exists_of_bind_eq_ok {ε α β : Type} {x : Except ε α} {f : α → Except ε β} {b : β}
    (h : x >>= f = .ok b) : ∃ a, x = .ok a ∧ f a = .ok b := by
  cases x with
  | error e => exact nomatch h
  | ok a => exact ⟨a, rfl, h⟩

/-- Another wording of the errors does not touch success. -/
theorem eq_ok_of_mapError_eq_ok {ε ε' α : Type} {x : Except ε α} {f : ε → ε'} {a : α}
    (h : x.mapError f = .ok a) : x = .ok a := by
  cases x with
  | error e => exact nomatch h
  | ok b => rw [Except.ok.inj h]

/-- Results can be compared by what they give. -/
theorem eq_ok_of_toOption_eq_some {ε α : Type} {x : Except ε α} {a : α}
    (h : x.toOption = some a) : x = .ok a := by
  cases x with
  | error e => exact nomatch h
  | ok b => rw [Option.some.inj h]

theorem Text.IsUsable.identifier {w : Text} (h : w.IsUsable) : w.isIdentifier = true :=
  Text.isIdentifier_iff.mpr h.form

/-- Every byte of a name may stand in an identifier. -/
theorem Text.IsUsable.mem_part {w : Text} (h : w.IsUsable) {b : UInt8} (hb : b ∈ w) :
    isIdentifierPart b = true := by
  have hid := h.identifier
  cases w with
  | nil => simp at hb
  | cons a rest =>
    rw [Text.isIdentifier, Bool.and_eq_true, List.all_eq_true] at hid
    rcases List.mem_cons.mp hb with rfl | hb
    · rw [isIdentifierPart, hid.1, Bool.true_or]
    · exact hid.2 b hb

/-! ## Machines that were put together -/

namespace Machine

theorem nodup_of_firstRepeated?_eq_none {names seen : List Text}
    (h : firstRepeated? seen names = none) : names.Nodup ∧ ∀ n ∈ names, n ∉ seen := by
  induction names generalizing seen with
  | nil => simp
  | cons name rest ih =>
    rw [firstRepeated?] at h
    split at h
    · exact absurd h (by simp)
    · rename_i hname
      obtain ⟨hnd, hseen⟩ := ih h
      refine ⟨List.nodup_cons.mpr ⟨fun hmem => hseen name hmem (by simp), hnd⟩, ?_⟩
      intro n hn
      rcases List.mem_cons.mp hn with rfl | hn
      · exact hname
      · exact fun hs => hseen n hn (List.mem_cons_of_mem _ hs)

theorem nodup_of_make {start : Text} {states : List State} {m : Machine}
    (h : make start states = .ok m) : m.stateNames.Nodup := by
  rw [make] at h
  split at h
  · exact absurd h (by simp)
  · split at h
    · exact absurd h (by simp)
    · rename_i hrep
      cases h
      exact (nodup_of_firstRepeated?_eq_none hrep).1

/-- The machine came out of one of the two constructors: from states, or from a document. -/
inductive Made (m : Machine) : Prop
  | ofStates {start : Text} {states : List State} (h : make start states = .ok m)
  | ofDocument {d : Document} (h : d.build = .ok m)

/-- A document is built by way of the states it describes. -/
theorem make_of_build {d : Document} {m : Machine} (h : d.build = .ok m) :
    ∃ states, make d.start states = .ok m := by
  rw [Document.build] at h
  obtain ⟨states, -, hm⟩ := exists_of_bind_eq_ok h
  exact ⟨states, eq_ok_of_mapError_eq_ok hm⟩

/-- **No two states of one name**, whichever way the machine was made. -/
theorem Made.nodup {m : Machine} (h : m.Made) : m.stateNames.Nodup := by
  cases h with
  | ofStates h => exact nodup_of_make h
  | ofDocument h =>
    obtain ⟨states, hm⟩ := make_of_build h
    exact nodup_of_make hm

/-! ## Machines that were validated -/

namespace WellFormed

variable {m : Machine} (hm : m.WellFormed) {st : State} (hst : st ∈ m.states)

include hm hst

theorem isUsable_predicate {t : Transition} (ht : t ∈ st.transitions)
    (h : t.isUnconditional = false) : t.predicate.name.IsUsable :=
  hm.predicate st hst t ht fun hname => by simp [Transition.isUnconditional_iff.mpr hname] at h

/-- Every transition but the last one has a condition. -/
theorem conditional : ∀ t ∈ st.transitions.dropLast, t.isUnconditional = false := by
  intro t ht
  obtain ⟨j, hj, rfl⟩ := List.mem_iff_getElem.mp ht
  rw [List.length_dropLast] at hj
  rw [List.getElem_dropLast]
  refine Bool.eq_false_iff.mpr fun hu => ?_
  have hlast := hm.last st hst j _ (List.getElem?_eq_getElem (by omega))
    (Transition.isUnconditional_iff.mp hu)
  omega

end WellFormed

end Machine

end StateForge
