import StateForge.Document.Basic
import StateForge.Proofs.Alphabet
import StateForge.Proofs.Text.Runes

/-!
# The compact form of a document

A document on one line, without blanks: texts in double quotes, lists in brackets and records in
braces. This is JSON, and it is YAML in its flow style.

`Document.compact` writes every field, also an empty one. What it writes is put together from three
forms (`Compact.quoted`, `Compact.list`, `Compact.record`), so that what holds of a reader has to be
shown for each of these forms once.

Texts stand in the quotes as they are. That is right as long as no byte needs an escape, which
`isQuotable` says.
-/

set_option autoImplicit false

namespace StateForge

/-! ## The three forms -/

namespace Compact

/-- What stands between items, and between members. -/
def comma : UInt8 := 0x2c

/-- A text in double quotes. -/
def quoted (s : Text) : Text :=
  0x22 :: s ++ [0x22]

/-- Items in brackets. -/
def list (items : List Text) : Text :=
  0x5b :: List.intercalate [comma] items ++ [0x5d]

/-- A name and a value. -/
def member (m : Text × Text) : Text :=
  quoted m.1 ++ 0x3a :: m.2

/-- Members in braces. -/
def record (members : List (Text × Text)) : Text :=
  0x7b :: List.intercalate [comma] (members.map member) ++ [0x7d]

theorem intercalate_cons {α : Type} (sep : α) (first : List α) (more : List (List α)) :
    List.intercalate [sep] (first :: more) = first ++ more.flatMap (sep :: ·) := by
  induction more generalizing first with
  | nil => simp
  | cons second more ih =>
    rw [List.intercalate_cons_cons, ih, List.flatMap_cons, List.append_assoc, List.singleton_append,
      List.cons_append]

end Compact

/-! ## Documents -/

open StateForge.Compact

/-- A transition on one line. -/
def TransitionDocument.compact (d : TransitionDocument) : Text :=
  record [("predicate", quoted d.predicate), ("state", quoted d.state)]

/-- A state on one line. -/
def StateDocument.compact (d : StateDocument) : Text :=
  record [("name", quoted d.name), ("run", quoted d.run),
    ("transitions", list (d.transitions.map TransitionDocument.compact))]

/-- A document on one line. -/
def Document.compact (d : Document) : Text :=
  record [("start", quoted d.start), ("states", list (d.states.map StateDocument.compact))]

/-- Bytes that stand for themselves between quotes: they show, and are neither the quote nor the
backslash. -/
def isQuotable (b : UInt8) : Bool :=
  0x21 ≤ b && b ≤ 0x7e && b != 0x22 && b != 0x5c

theorem isQuotable_iff {b : UInt8} :
    isQuotable b = true ↔
      0x21 ≤ b.toNat ∧ b.toNat ≤ 0x7e ∧ b.toNat ≠ 0x22 ∧ b.toNat ≠ 0x5c := by
  simp only [isQuotable, Bool.and_eq_true, decide_eq_true_eq, bne_iff_ne, ne_eq, and_assoc,
    UInt8.le_iff_toNat_le, ← UInt8.toNat_inj, UInt8.reduceToNat]

theorem isQuotable_of_isIdentifierPart (b : UInt8) (h : isIdentifierPart b = true) :
    isQuotable b = true := by
  rw [isQuotable_iff]
  simp only [isIdentifierPart, isIdentifierStart, isDigitByte, Bool.or_eq_true, Bool.and_eq_true,
    decide_eq_true_eq, beq_iff_eq, UInt8.le_iff_toNat_le, ← UInt8.toNat_inj,
    UInt8.reduceToNat] at h
  omega

theorem Text.Over.isAscii {s : Text} (h : s.Over isQuotable) : s.IsAscii := by
  intro b hb
  have hle := (isQuotable_iff.mp (h b hb)).2.1
  exact UInt8.lt_iff_toNat_lt.mpr (Nat.lt_succ_of_le (Nat.le_succ_of_le hle))

theorem over_quotable_of_isIdentifier {w : Text} (h : w.isIdentifier = true) :
    w.Over isQuotable := by
  cases w with
  | nil => exact absurd h (by simp [Text.isIdentifier])
  | cons b w =>
    rw [Text.isIdentifier, Bool.and_eq_true, List.all_eq_true] at h
    refine List.forall_mem_cons.mpr ⟨?_, fun b' hb' => ?_⟩
    · exact isQuotable_of_isIdentifierPart b (by rw [isIdentifierPart, h.1, Bool.true_or])
    · exact isQuotable_of_isIdentifierPart b' (h.2 b' hb')

/-- Nothing in the transition needs an escape. -/
structure TransitionDocument.IsQuotable (d : TransitionDocument) : Prop where
  predicate : d.predicate.Over isQuotable
  state : d.state.Over isQuotable

/-- Nothing in the state needs an escape. -/
structure StateDocument.IsQuotable (d : StateDocument) : Prop where
  name : d.name.Over isQuotable
  run : d.run.Over isQuotable
  transitions : ∀ t ∈ d.transitions, t.IsQuotable

/-- Nothing in the document needs an escape. -/
structure Document.IsQuotable (d : Document) : Prop where
  start : d.start.Over isQuotable
  states : ∀ st ∈ d.states, st.IsQuotable

/-! ## Simple names -/

/-- A predicate in its simplest forms: nothing, a name, or the negation of a name. -/
inductive Text.IsSimplePredicate : Text → Prop
  | empty : IsSimplePredicate []
  | name {w : Text} (h : w.isIdentifier = true) : IsSimplePredicate w
  | negation {w : Text} (h : w.isIdentifier = true) :
      IsSimplePredicate (Predicate.negationMark :: w)

theorem Text.IsSimplePredicate.over_quotable {w : Text} (h : w.IsSimplePredicate) :
    w.Over isQuotable := by
  cases h with
  | empty => exact fun b hb => absurd hb (by simp)
  | name h => exact over_quotable_of_isIdentifier h
  | negation h => exact List.forall_mem_cons.mpr ⟨by decide, over_quotable_of_isIdentifier h⟩

/-- All names are identifiers, and the predicates are in their simplest forms. -/
structure Document.HasSimpleNames (d : Document) : Prop where
  start : d.start.isIdentifier = true
  name : ∀ st ∈ d.states, st.name.isIdentifier = true
  run : ∀ st ∈ d.states, st.run.isIdentifier = true
  target : ∀ st ∈ d.states, ∀ t ∈ st.transitions, t.state.isIdentifier = true
  predicate : ∀ st ∈ d.states, ∀ t ∈ st.transitions, t.predicate.IsSimplePredicate

theorem Document.HasSimpleNames.isQuotable {d : Document} (h : d.HasSimpleNames) :
    d.IsQuotable where
  start := over_quotable_of_isIdentifier h.start
  states st hst :=
    { name := over_quotable_of_isIdentifier (h.name st hst)
      run := over_quotable_of_isIdentifier (h.run st hst)
      transitions := fun t ht =>
        ⟨(h.predicate st hst t ht).over_quotable,
          over_quotable_of_isIdentifier (h.target st hst t ht)⟩ }

end StateForge
