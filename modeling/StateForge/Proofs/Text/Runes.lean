import Mathlib.Data.List.DropRight
import Mathlib.Tactic.SplitIfs
import StateForge.Text.Rune

/-!
# Texts and their runes

A text is read rune by rune, from left to right. This file says that nothing is lost or moved by
that, also where the text is no UTF-8: a part of the runes is what is read from its own bytes.

* `Text.scalar2?_eq_some_iff` and its two companions: the sequences that are read as a character
  are the ones that encode it.
* `Text.runes_encode_append`: an encoded character is read as that character, whatever follows.
  `Text.runes_induct` is induction over a text by its runes.
* `Text.ofRunes_runes`, `Text.runes_ofRunes_of_infix`: reading and writing back, and reading a part.
* `Text.runes_of_isAscii`: an ASCII text is read byte by byte.
* `Text.runes_trim`: so trimming a text is trimming its runes, and `Text.IsTrimmed` says that there
  is nothing left to trim.

That a part at the beginning is read as it was before needs an argument. A byte that was no part of
a character could become one only if a sequence ended where the part ends, and then it would have
been that character before.
-/

set_option autoImplicit false

namespace StateForge

namespace Text

/-! ## Sequences that encode a character -/

theorem scalar?_eq_some_iff {below code : Nat} {c : Char} :
    scalar? below code = some c ↔ below ≤ code ∧ c.val.toNat = code := by
  rw [scalar?]
  constructor
  · intro h
    split at h
    · rename_i hcode
      cases h
      exact ⟨hcode.1, by rw [Char.ofNat, dif_pos hcode.2]; rfl⟩
    · exact absurd h (by simp)
  · rintro ⟨hbelow, rfl⟩
    have hvalid : c.val.toNat.isValidChar := c.valid
    rw [if_pos ⟨hbelow, hvalid⟩]
    exact congrArg some c.ofNat_toNat

theorem isContinuation_iff {b : UInt8} :
    isContinuation b = true ↔ 128 ≤ b.toNat ∧ b.toNat < 192 := by
  rw [isContinuation, Bool.and_eq_true, decide_eq_true_iff, decide_eq_true_iff,
    UInt8.le_iff_toNat_le, UInt8.lt_iff_toNat_lt]
  exact Iff.rfl

/-- What a sequence of two bytes is read as is what it encodes. In this proof and the two after it
the lengths of the sequences decide all cases but one, and in that one the bits are compared. -/
theorem scalar2?_eq_some_iff {b0 b1 : UInt8} {c : Char} :
    scalar2? b0 b1 = some c ↔ String.utf8EncodeChar c = [b0, b1] := by
  rw [scalar2?, Option.ite_none_right_eq_some, scalar?_eq_some_iff, String.utf8EncodeChar]
  simp only [Bool.and_eq_true, decide_eq_true_eq, isContinuation_iff, UInt8.le_iff_toNat_le,
    UInt8.lt_iff_toNat_lt, tailBits, UInt8.reduceToNat]
  generalize c.val.toNat = v
  split_ifs <;>
    simp only [List.cons.injEq, ← UInt8.toNat_inj, UInt8.toNat_ofNat', reduceCtorEq, and_true,
      and_false, iff_false] <;>
    omega

theorem scalar3?_eq_some_iff {b0 b1 b2 : UInt8} {c : Char} :
    scalar3? b0 b1 b2 = some c ↔ String.utf8EncodeChar c = [b0, b1, b2] := by
  rw [scalar3?, Option.ite_none_right_eq_some, scalar?_eq_some_iff, String.utf8EncodeChar]
  simp only [Bool.and_eq_true, decide_eq_true_eq, isContinuation_iff, UInt8.le_iff_toNat_le,
    UInt8.lt_iff_toNat_lt, tailBits, UInt8.reduceToNat]
  generalize c.val.toNat = v
  split_ifs <;>
    simp only [List.cons.injEq, ← UInt8.toNat_inj, UInt8.toNat_ofNat', reduceCtorEq, and_true,
      and_false, iff_false] <;>
    omega

theorem scalar4?_eq_some_iff {b0 b1 b2 b3 : UInt8} {c : Char} :
    scalar4? b0 b1 b2 b3 = some c ↔ String.utf8EncodeChar c = [b0, b1, b2, b3] := by
  have hvalid : c.val.toNat.isValidChar := c.valid
  rw [Nat.isValidChar] at hvalid
  rw [scalar4?, Option.ite_none_right_eq_some, scalar?_eq_some_iff, String.utf8EncodeChar]
  simp only [Bool.and_eq_true, decide_eq_true_eq, isContinuation_iff, UInt8.le_iff_toNat_le,
    UInt8.lt_iff_toNat_lt, tailBits, UInt8.reduceToNat]
  generalize c.val.toNat = v at hvalid ⊢
  split_ifs <;>
    simp only [List.cons.injEq, ← UInt8.toNat_inj, UInt8.toNat_ofNat', reduceCtorEq, and_true,
      and_false, iff_false] <;>
    omega

/-- The sequences of one byte are the ASCII characters. -/
theorem encode_ofNat {b : UInt8} (hb : b < 0x80) :
    String.utf8EncodeChar (Char.ofNat b.toNat) = [b] := by
  have hb' : b.toNat < 128 := UInt8.lt_iff_toNat_lt.mp hb
  have hvalid : b.toNat.isValidChar := .inl (by omega)
  have hval : (Char.ofNat b.toNat).val.toNat = b.toNat := by rw [Char.ofNat, dif_pos hvalid]; rfl
  rw [String.utf8EncodeChar, hval, if_pos (by omega), UInt8.ofNat_toNat]

/-- The encodings of a character, by their lengths, as a reader meets them: shorter sequences are
tried first. -/
inductive Encoded (c : Char) : Text → Prop
  | one {b : UInt8} (hb : b < 0x80) (hc : Char.ofNat b.toNat = c) : Encoded c [b]
  | two {b0 b1 : UInt8} (hb : ¬ b0 < 0x80) (hc : scalar2? b0 b1 = some c) : Encoded c [b0, b1]
  | three {b0 b1 b2 : UInt8} (hb : ¬ b0 < 0x80) (hnone : scalar2? b0 b1 = none)
      (hc : scalar3? b0 b1 b2 = some c) : Encoded c [b0, b1, b2]
  | four {b0 b1 b2 b3 : UInt8} (hb : ¬ b0 < 0x80) (hnone : scalar2? b0 b1 = none)
      (hnone' : scalar3? b0 b1 b2 = none) (hc : scalar4? b0 b1 b2 b3 = some c) :
      Encoded c [b0, b1, b2, b3]

theorem encoded (c : Char) : Encoded c (String.utf8EncodeChar c) := by
  have hascii : ∀ {b : UInt8}, 0x80 ≤ b.toNat → ¬ b < 0x80 := fun h hb =>
    absurd (UInt8.lt_iff_toNat_lt.mp hb) (Nat.not_lt.mpr h)
  have hlead2 : ∀ {b0 b1 : UInt8}, 0xe0 ≤ b0.toNat → scalar2? b0 b1 = none := by
    intro b0 b1 h
    rw [scalar2?, if_neg]
    simp only [Bool.and_eq_true, decide_eq_true_eq, UInt8.lt_iff_toNat_lt, UInt8.reduceToNat]
    omega
  have hlead3 : ∀ {b0 b1 b2 : UInt8}, 0xf0 ≤ b0.toNat → scalar3? b0 b1 b2 = none := by
    intro b0 b1 b2 h
    rw [scalar3?, if_neg]
    simp only [Bool.and_eq_true, decide_eq_true_eq, UInt8.lt_iff_toNat_lt, UInt8.reduceToNat]
    omega
  have hencode := String.utf8EncodeChar.eq_def c
  simp only at hencode
  split_ifs at hencode
  · rw [hencode]
    have hsmall : (UInt8.ofNat c.val.toNat).toNat = c.val.toNat := by
      rw [UInt8.toNat_ofNat']
      omega
    refine .one (UInt8.lt_iff_toNat_lt.mpr ?_) ?_
    · rw [hsmall]
      exact Nat.lt_succ_of_le ‹_›
    · rw [hsmall]
      exact c.ofNat_toNat
  · rw [hencode]
    exact .two (hascii (by rw [UInt8.toNat_ofNat']; omega)) (scalar2?_eq_some_iff.mpr hencode)
  · rw [hencode]
    exact .three (hascii (by rw [UInt8.toNat_ofNat']; omega))
      (hlead2 (by rw [UInt8.toNat_ofNat']; omega)) (scalar3?_eq_some_iff.mpr hencode)
  · rw [hencode]
    exact .four (hascii (by rw [UInt8.toNat_ofNat']; omega))
      (hlead2 (by rw [UInt8.toNat_ofNat']; omega)) (hlead3 (by rw [UInt8.toNat_ofNat']; omega))
      (scalar4?_eq_some_iff.mpr hencode)

/-! ## Reading a character -/

/-- **An encoded character is read as that character**, whatever follows it. -/
theorem runes_encode_append (c : Char) (t : Text) :
    runes (String.utf8EncodeChar c ++ t) = .char c :: runes t := by
  have h := encoded c
  generalize String.utf8EncodeChar c = bytes at h ⊢
  cases h with
  | one hb hc => rw [List.singleton_append, runes.eq_def]; simp only [hb, hc, if_true]
  | two hb hc => rw [List.cons_append, runes.eq_def]; simp [hb, hc]
  | three hb hnone hc => rw [List.cons_append, runes.eq_def]; simp [hb, hnone, hc]
  | four hb hnone hnone' hc => rw [List.cons_append, runes.eq_def]; simp [hb, hnone, hnone', hc]

/-- A text starts with a character or with a byte that is none. -/
theorem runes_cons_cases (b : UInt8) (t : Text) :
    (∃ c t', b :: t = String.utf8EncodeChar c ++ t') ∨ runes (b :: t) = .byte b :: runes t := by
  rw [runes.eq_def]
  simp only
  split
  · exact .inl ⟨_, t, by rw [encode_ofNat ‹_›]; rfl⟩
  · cases t with
    | nil => exact .inr rfl
    | cons b1 t =>
      simp only
      split
      · exact .inl ⟨_, t, by rw [scalar2?_eq_some_iff.mp ‹_›]; rfl⟩
      · cases t with
        | nil => exact .inr rfl
        | cons b2 t =>
          simp only
          split
          · exact .inl ⟨_, t, by rw [scalar3?_eq_some_iff.mp ‹_›]; rfl⟩
          · cases t with
            | nil => exact .inr rfl
            | cons b3 t =>
              simp only
              split
              · exact .inl ⟨_, t, by rw [scalar4?_eq_some_iff.mp ‹_›]; rfl⟩
              · exact .inr rfl

/-- Every character takes bytes. -/
theorem encode_ne_nil (c : Char) : String.utf8EncodeChar c ≠ [] := by
  have h := encoded c
  intro hnil
  rw [hnil] at h
  cases h

/-- Induction over a text by its runes. -/
theorem runes_induct {motive : Text → Prop} (nil : motive [])
    (char : ∀ c t, motive t → motive (String.utf8EncodeChar c ++ t))
    (byte : ∀ b t, runes (b :: t) = .byte b :: runes t → motive t → motive (b :: t)) (s : Text) :
    motive s := by
  induction hn : s.length using Nat.strong_induction_on generalizing s with
  | _ n ih =>
    cases s with
    | nil => exact nil
    | cons b t =>
      rcases runes_cons_cases b t with ⟨c, t', hsplit⟩ | hstray
      · have hlength : (b :: t).length = (String.utf8EncodeChar c).length + t'.length := by
          rw [hsplit, List.length_append]
        have hpos := List.length_pos_iff.mpr (encode_ne_nil c)
        rw [hsplit]
        exact char c t' (ih t'.length (by omega) t' rfl)
      · exact byte b t hstray (ih t.length (by simp at hn; omega) t rfl)

/-! ## Reading and writing back -/

theorem ofRunes_cons (r : Rune) (rs : List Rune) : ofRunes (r :: rs) = r.bytes ++ ofRunes rs :=
  List.flatMap_cons

theorem ofRunes_append (rs rs' : List Rune) : ofRunes (rs ++ rs') = ofRunes rs ++ ofRunes rs' :=
  List.flatMap_append

/-- **Nothing is lost when a text is read.** -/
theorem ofRunes_runes (s : Text) : ofRunes (runes s) = s := by
  induction s using runes_induct with
  | nil => rfl
  | char c t ih => rw [runes_encode_append, ofRunes_cons, ih, Rune.bytes]
  | byte b t hstray ih => rw [hstray, ofRunes_cons, ih, Rune.bytes, List.singleton_append]

/-- The end of what is read is what is read from its own bytes. -/
theorem runes_ofRunes_of_suffix {s : Text} {rs : List Rune} (h : rs <:+ runes s) :
    runes (ofRunes rs) = rs := by
  induction s using runes_induct with
  | nil => rw [List.suffix_nil.mp h]; rfl
  | char c t ih =>
    rw [runes_encode_append] at h
    rcases List.suffix_cons_iff.mp h with rfl | h
    · rw [ofRunes_cons, ofRunes_runes, Rune.bytes, runes_encode_append]
    · exact ih h
  | byte b t hstray ih =>
    rw [hstray] at h
    rcases List.suffix_cons_iff.mp h with rfl | h
    · rw [ofRunes_cons, ofRunes_runes, Rune.bytes, List.singleton_append, hstray]
    · exact ih h

/-- The beginning of what is read is what is read from its own bytes. -/
theorem runes_ofRunes_of_prefix {s : Text} {rs : List Rune} (h : rs <+: runes s) :
    runes (ofRunes rs) = rs := by
  induction s using runes_induct generalizing rs with
  | nil => rw [List.prefix_nil.mp h]; rfl
  | char c t ih =>
    rw [runes_encode_append] at h
    rcases List.prefix_cons_iff.mp h with rfl | ⟨rest, rfl, hrest⟩
    · rfl
    · rw [ofRunes_cons, Rune.bytes, runes_encode_append, ih hrest]
  | byte b t hstray ih =>
    have hread := hstray
    rw [hstray] at h
    rcases List.prefix_cons_iff.mp h with rfl | ⟨rest, rfl, more, hmore⟩
    · rfl
    · rw [ofRunes_cons, Rune.bytes, List.singleton_append]
      rcases runes_cons_cases b (ofRunes rest) with ⟨c, t', hsplit⟩ | hstray'
      · -- the byte would start a character in the whole text as well
        rw [← ofRunes_runes t, ← hmore, ofRunes_append, ← List.cons_append, hsplit,
          List.append_assoc, runes_encode_append] at hread
        exact absurd hread (by simp)
      · rw [hstray', ih ⟨more, hmore⟩]

/-- **A part of what is read is what is read from its own bytes.** -/
theorem runes_ofRunes_of_infix {s : Text} {rs : List Rune} (h : rs <:+: runes s) :
    runes (ofRunes rs) = rs := by
  obtain ⟨first, last, h⟩ := h
  have hsuffix : runes (ofRunes (rs ++ last)) = rs ++ last :=
    runes_ofRunes_of_suffix ⟨first, by rw [← h, List.append_assoc]⟩
  exact runes_ofRunes_of_prefix ⟨last, hsuffix.symm⟩

/-! ## ASCII -/

/-- There is one byte for each character. -/
def IsAscii (s : Text) : Prop :=
  ∀ b ∈ s, b < 0x80

/-- The characters of a text, each from one byte. -/
def chars (s : Text) : List Char :=
  s.map fun b => Char.ofNat b.toNat

@[simp] theorem chars_nil : chars [] = [] := rfl

@[simp] theorem chars_cons (b : UInt8) (s : Text) :
    chars (b :: s) = Char.ofNat b.toNat :: chars s := rfl

theorem chars_append (s t : Text) : chars (s ++ t) = chars s ++ chars t :=
  List.map_append

@[simp] theorem length_chars (s : Text) : (chars s).length = s.length :=
  List.length_map _

theorem runes_of_isAscii {s : Text} (h : s.IsAscii) : runes s = s.chars.map Rune.char := by
  induction s with
  | nil => rfl
  | cons b s ih =>
    obtain ⟨hb, hs⟩ := List.forall_mem_cons.mp h
    have hrunes := runes_encode_append (Char.ofNat b.toNat) s
    rw [encode_ofNat hb, List.singleton_append] at hrunes
    rw [hrunes, ih hs, chars_cons, List.map_cons]

theorem ofChars_append (cs ds : List Char) : ofChars (cs ++ ds) = ofChars cs ++ ofChars ds :=
  List.flatMap_append

theorem ofChars_chars {s : Text} (h : s.IsAscii) : ofChars s.chars = s := by
  induction s with
  | nil => rfl
  | cons b s ih =>
    obtain ⟨hb, hs⟩ := List.forall_mem_cons.mp h
    rw [chars_cons, ofChars, List.flatMap_cons, encode_ofNat hb, ← ofChars, ih hs,
      List.singleton_append]

/-! ## Trimming -/

/-- There is no white space at either end. -/
structure IsTrimmed (s : Text) : Prop where
  head : ∀ r, s.runes.head? = some r → r.isBlank = false
  last : ∀ r, s.runes.getLast? = some r → r.isBlank = false

theorem isInfix_trimRunes (rs : List Rune) : trimRunes rs <:+: rs :=
  (List.rdropWhile_prefix Rune.isBlank _).isInfix.trans (List.dropWhile_suffix _).isInfix

/-- Trimming a text is trimming its runes. -/
theorem runes_trim (s : Text) : runes (trim s) = trimRunes (runes s) :=
  runes_ofRunes_of_infix (isInfix_trimRunes _)

/-- **After trimming nothing is left to trim.** -/
theorem isTrimmed_trim (s : Text) : (trim s).IsTrimmed := by
  have htrim : runes (trim s) = (s.runes.dropWhile Rune.isBlank).rdropWhile Rune.isBlank :=
    runes_trim s
  refine ⟨fun r hr => ?_, fun r hr => ?_⟩
  · -- what is cut off behind leaves the first rune alone
    obtain ⟨rest, hrest⟩ := List.rdropWhile_prefix Rune.isBlank (s.runes.dropWhile Rune.isBlank)
    rw [htrim] at hr
    have hhead : (s.runes.dropWhile Rune.isBlank).head? = some r := by
      rw [← hrest, List.head?_append, hr, Option.some_or]
    simpa [hhead] using List.head?_dropWhile_not Rune.isBlank s.runes
  · rw [htrim] at hr
    have hne : (s.runes.dropWhile Rune.isBlank).rdropWhile Rune.isBlank ≠ [] := by
      intro hnil
      rw [hnil] at hr
      exact absurd hr (by simp)
    rw [List.getLast?_eq_some_getLast hne, Option.some_inj] at hr
    simpa [hr] using List.rdropWhile_last_not Rune.isBlank _ hne

end Text

end StateForge
