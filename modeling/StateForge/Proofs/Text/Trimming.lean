import StateForge.Proofs.Text.Runes

/-!
# White space around a text

Trimming works on runes, and what a byte is read as can depend on the bytes around it. This file
says that white space is not affected by that: it is read as white space wherever it stands, and the
text next to it is read as if it stood alone, also if it is no UTF-8.

* `Text.runes_append`: two texts are read one after the other, if the second does not start in the
  middle of a character. An encoded character never does (`Text.exists_encode`).
* `Text.trim_around` and `Text.exists_around`: trimming is settled by a text without white space at
  its ends and the white space around it.
* `Text.isTrimmed_iff`: whether a text has white space at its ends can be seen from its bytes.
-/

set_option autoImplicit false

namespace StateForge

namespace Text

/-! ## Two texts, one after the other -/

/-- The bytes of a character: only the first one does not continue a sequence. -/
theorem exists_encode (c : Char) :
    ∃ b rest, String.utf8EncodeChar c = b :: rest ∧ isContinuation b = false ∧
      ∀ b' ∈ rest, isContinuation b' = true := by
  have hlead : ∀ {b : UInt8}, b.toNat < 0x80 ∨ 0xc0 ≤ b.toNat → isContinuation b = false := by
    intro b hb
    rw [Bool.eq_false_iff, ne_eq, isContinuation_iff]
    omega
  have h := encoded c
  generalize String.utf8EncodeChar c = bytes at h ⊢
  cases h with
  | one hb _ => exact ⟨_, _, rfl, hlead (.inl (UInt8.lt_iff_toNat_lt.mp hb)), by simp⟩
  | two _ hc =>
    rw [scalar2?, Option.ite_none_right_eq_some] at hc
    simp only [Bool.and_eq_true, decide_eq_true_eq, UInt8.le_iff_toNat_le] at hc
    exact ⟨_, _, rfl, hlead (.inr hc.1.1.1), by simp [hc.1.2]⟩
  | three _ _ hc =>
    rw [scalar3?, Option.ite_none_right_eq_some] at hc
    simp only [Bool.and_eq_true, decide_eq_true_eq, UInt8.le_iff_toNat_le,
      UInt8.reduceToNat] at hc
    exact ⟨_, _, rfl, hlead (.inr (by omega)), by simp [hc.1.1.2, hc.1.2]⟩
  | four _ _ _ hc =>
    rw [scalar4?, Option.ite_none_right_eq_some] at hc
    simp only [Bool.and_eq_true, decide_eq_true_eq, UInt8.le_iff_toNat_le,
      UInt8.reduceToNat] at hc
    exact ⟨_, _, rfl, hlead (.inr (by omega)), by simp [hc.1.1.1.2, hc.1.1.2, hc.1.2]⟩

/-- **Texts are read one after the other**, if the second does not start in the middle of a
character. A stray byte at the end of the first could only become part of a character that reaches
into the second. -/
theorem runes_append {s t : Text} (ht : ∀ b, t.head? = some b → isContinuation b = false) :
    runes (s ++ t) = runes s ++ runes t := by
  induction s using runes_induct with
  | nil => rfl
  | char c s ih => rw [List.append_assoc, runes_encode_append, runes_encode_append, ih]; rfl
  | byte b s hstray ih =>
    rcases runes_cons_cases b (s ++ t) with ⟨c, rest, hsplit⟩ | hstray'
    · have hchar : ∀ more, b :: s ≠ String.utf8EncodeChar c ++ more := by
        intro more hs
        rw [hs, runes_encode_append] at hstray
        exact absurd hstray (by simp)
      rw [← List.cons_append, List.append_eq_append_iff] at hsplit
      rcases hsplit with ⟨more, hc, hrest⟩ | ⟨more, hs, -⟩
      · cases more with
        | nil => exact absurd (by rw [hc, List.append_nil, List.append_nil]) (hchar [])
        | cons b' more =>
          -- the character goes on with the first byte of the second text
          obtain ⟨lead, tail, hencode, -, htail⟩ := exists_encode c
          rw [hencode, List.cons_append, List.cons.injEq] at hc
          have hcontinues := htail b' (by simp [hc.2])
          rw [ht b' (by simp [hrest])] at hcontinues
          exact absurd hcontinues (by simp)
      · exact absurd hs (hchar more)
    · rw [List.cons_append, hstray', ih, hstray, List.cons_append]

theorem runes_ofChars_append (cs : List Char) (t : Text) :
    runes (ofChars cs ++ t) = cs.map Rune.char ++ runes t := by
  induction cs with
  | nil => rfl
  | cons c cs ih =>
    rw [ofChars, List.flatMap_cons, ← ofChars, List.append_assoc, runes_encode_append, ih]
    rfl

theorem runes_ofChars (cs : List Char) : runes (ofChars cs) = cs.map Rune.char := by
  have hchars := runes_ofChars_append cs []
  rwa [List.append_nil, runes, List.append_nil] at hchars

theorem runes_append_ofChars (s : Text) (cs : List Char) :
    runes (s ++ ofChars cs) = runes s ++ cs.map Rune.char := by
  rw [runes_append, runes_ofChars]
  intro b hb
  cases cs with
  | nil => exact absurd hb (by simp [ofChars])
  | cons c cs =>
    obtain ⟨lead, tail, hencode, hlead, -⟩ := exists_encode c
    rw [ofChars, List.flatMap_cons, hencode, List.cons_append, List.head?_cons,
      Option.some_inj] at hb
    exact hb ▸ hlead

/-! ## White space -/

/-- White space is a sequence of encoded characters. -/
theorem isBlank_iff {s : Text} :
    s.isBlank = true ↔ ∃ cs : List Char, s = ofChars cs ∧ ∀ c ∈ cs, isBlankChar c = true := by
  rw [isBlank, List.all_eq_true]
  constructor
  · intro h
    induction s using runes_induct with
    | nil => exact ⟨[], rfl, by simp⟩
    | char c t ih =>
      rw [runes_encode_append, List.forall_mem_cons] at h
      obtain ⟨cs, rfl, hcs⟩ := ih h.2
      exact ⟨c :: cs, by simp [ofChars], List.forall_mem_cons.mpr ⟨h.1, hcs⟩⟩
    | byte b t hstray ih =>
      rw [hstray, List.forall_mem_cons] at h
      exact absurd h.1 (by simp [Rune.isBlank])
  · rintro ⟨cs, rfl, hcs⟩ r hr
    rw [runes_ofChars] at hr
    obtain ⟨c, hc, rfl⟩ := List.mem_map.mp hr
    exact hcs c hc

theorem isBlank_append {s t : Text} (hs : s.isBlank = true) (ht : t.isBlank = true) :
    (s ++ t).isBlank = true := by
  obtain ⟨cs, rfl, hcs⟩ := isBlank_iff.mp hs
  obtain ⟨ds, rfl, hds⟩ := isBlank_iff.mp ht
  refine isBlank_iff.mpr ⟨cs ++ ds, by simp [ofChars], fun c hc => ?_⟩
  rcases List.mem_append.mp hc with hc | hc
  · exact hcs c hc
  · exact hds c hc

/-- White space is read as such, and what it stands around as if it stood alone. -/
theorem runes_around {before after : Text} (hbefore : before.isBlank = true)
    (hafter : after.isBlank = true) (s : Text) :
    runes (before ++ s ++ after) = runes before ++ runes s ++ runes after := by
  obtain ⟨cs, rfl, -⟩ := isBlank_iff.mp hbefore
  obtain ⟨ds, rfl, -⟩ := isBlank_iff.mp hafter
  rw [runes_append_ofChars, runes_ofChars_append, runes_ofChars, runes_ofChars]

/-! ## Trimming -/

theorem isTrimmed_nil : IsTrimmed [] :=
  ⟨by simp [runes], by simp [runes]⟩

/-- Runes without white space at either end are what trimming leaves of them, with white space
around them. -/
theorem trimRunes_around {before rs after : List Rune}
    (hbefore : ∀ r ∈ before, r.isBlank = true) (hafter : ∀ r ∈ after, r.isBlank = true)
    (hhead : ∀ r, rs.head? = some r → r.isBlank = false)
    (hlast : ∀ r, rs.getLast? = some r → r.isBlank = false) :
    trimRunes (before ++ rs ++ after) = rs := by
  rw [trimRunes, List.append_assoc, List.dropWhile_append_of_pos hbefore]
  cases rs with
  | nil =>
    rw [List.nil_append, List.dropWhile_eq_nil_iff.mpr hafter]
    rfl
  | cons r rs =>
    have hkeep : (r :: rs ++ after).dropWhile Rune.isBlank = r :: rs ++ after := by
      rw [List.cons_append, List.dropWhile_cons_of_neg (by simp [hhead r rfl])]
    rw [hkeep, List.reverse_append, List.dropWhile_append_of_pos (by simpa using hafter)]
    obtain ⟨last, hlast'⟩ := Option.ne_none_iff_exists'.mp
      (mt List.getLast?_eq_none_iff.mp (List.cons_ne_nil r rs))
    obtain ⟨first, hfirst⟩ := List.getLast?_eq_some_iff.mp hlast'
    rw [hfirst, List.reverse_append, List.reverse_singleton, List.singleton_append,
      List.dropWhile_cons_of_neg (by simp [hlast last hlast']), List.reverse_cons,
      List.reverse_reverse]

/-- **White space around a text without white space at its ends is trimmed**, and nothing else. -/
theorem trim_around {before s after : Text} (hbefore : before.isBlank = true)
    (hafter : after.isBlank = true) (hs : s.IsTrimmed) : trim (before ++ s ++ after) = s := by
  rw [trim, runes_around hbefore hafter, trimRunes_around (List.all_eq_true.mp hbefore)
    (List.all_eq_true.mp hafter) hs.head hs.last, ofRunes_runes]

theorem trim_of_isTrimmed {s : Text} (hs : s.IsTrimmed) : trim s = s := by
  have h := @trim_around [] s [] rfl rfl hs
  rwa [List.nil_append, List.append_nil] at h

theorem isBlank_ofRunes {s : Text} {rs : List Rune} (hrs : rs <:+: runes s)
    (h : ∀ r ∈ rs, r.isBlank = true) : (ofRunes rs).isBlank = true := by
  rw [isBlank, runes_ofRunes_of_infix hrs, List.all_eq_true]
  exact h

/-- **What trimming takes away is white space**, before and after what is left. -/
theorem exists_around (s : Text) :
    ∃ before after, before.isBlank = true ∧ after.isBlank = true ∧
      s = before ++ trim s ++ after := by
  have hfront := List.takeWhile_append_dropWhile (p := Rune.isBlank) (l := runes s)
  have hback : (runes s).dropWhile Rune.isBlank = trimRunes (runes s)
      ++ ((runes s).dropWhile Rune.isBlank).rtakeWhile Rune.isBlank :=
    (List.rdropWhile_append_rtakeWhile (p := Rune.isBlank)).symm
  refine ⟨ofRunes ((runes s).takeWhile Rune.isBlank),
    ofRunes (((runes s).dropWhile Rune.isBlank).rtakeWhile Rune.isBlank),
    isBlank_ofRunes (List.takeWhile_prefix _).isInfix fun r hr => List.mem_takeWhile_imp hr,
    isBlank_ofRunes ((List.rtakeWhile_suffix _ _).isInfix.trans
      (List.dropWhile_suffix _).isInfix) fun r hr => List.mem_rtakeWhile_imp hr, ?_⟩
  rw [trim, ← ofRunes_append, ← ofRunes_append, List.append_assoc, ← hback, hfront, ofRunes_runes]

/-- **More white space makes no difference.** -/
theorem trim_padded {before after : Text} (hbefore : before.isBlank = true)
    (hafter : after.isBlank = true) (s : Text) : trim (before ++ s ++ after) = trim s := by
  obtain ⟨front, back, hfront, hback, hs⟩ := exists_around s
  have hpadded : before ++ s ++ after = (before ++ front) ++ trim s ++ (back ++ after) := by
    conv_lhs => rw [hs]
    simp
  rw [hpadded, trim_around (isBlank_append hbefore hfront) (isBlank_append hback hafter)
    (isTrimmed_trim s)]

theorem trim_blank_append {before : Text} (hbefore : before.isBlank = true) (s : Text) :
    trim (before ++ s) = trim s := by
  have h := trim_padded hbefore (rfl : isBlank [] = true) s
  rwa [List.append_nil] at h

theorem trim_append_blank {after : Text} (hafter : after.isBlank = true) (s : Text) :
    trim (s ++ after) = trim s :=
  trim_padded (rfl : isBlank [] = true) hafter s

theorem trim_eq_nil_iff {s : Text} : trim s = [] ↔ s.isBlank = true := by
  constructor
  · intro h
    obtain ⟨front, back, hfront, hback, hs⟩ := exists_around s
    rw [hs, h, List.append_nil]
    exact isBlank_append hfront hback
  · intro h
    rw [← List.append_nil s, trim_blank_append h, trim_of_isTrimmed isTrimmed_nil]

/-! ## White space at the ends, in bytes -/

/-- **A text has white space at one of its ends if it starts or ends with the bytes of a character
of white space**, also where these bytes stand next to others that are no part of a character. -/
theorem isTrimmed_iff {s : Text} :
    s.IsTrimmed ↔ ∀ c, isBlankChar c = true →
      ¬ String.utf8EncodeChar c <+: s ∧ ¬ String.utf8EncodeChar c <:+ s := by
  constructor
  · intro h c hc
    constructor
    · rintro ⟨rest, rfl⟩
      have hblank := h.head (.char c) (by rw [runes_encode_append, List.head?_cons])
      exact absurd hc (by simpa [Rune.isBlank] using hblank)
    · rintro ⟨rest, rfl⟩
      have hrunes := runes_append_ofChars rest [c]
      rw [ofChars, List.flatMap_singleton] at hrunes
      have hblank := h.last (.char c) (by rw [hrunes]; simp)
      exact absurd hc (by simpa [Rune.isBlank] using hblank)
  · intro h
    have hnone : ∀ r : Rune, r.bytes <+: s ∨ r.bytes <:+ s → r.isBlank = false := by
      intro r hr
      cases r with
      | byte b => rfl
      | char c =>
        cases hc : Rune.isBlank (.char c) with
        | false => rfl
        | true =>
          rcases hr with hr | hr
          · exact absurd hr (h c hc).1
          · exact absurd hr (h c hc).2
    refine ⟨fun r hr => hnone r (.inl ?_), fun r hr => hnone r (.inr ?_)⟩
    · obtain ⟨rest, hrest⟩ := List.head?_eq_some_iff.mp hr
      exact ⟨ofRunes rest, by rw [← ofRunes_cons, ← hrest, ofRunes_runes]⟩
    · obtain ⟨rest, hrest⟩ := List.getLast?_eq_some_iff.mp hr
      refine ⟨ofRunes rest, ?_⟩
      have hbytes : r.bytes = ofRunes [r] := by simp [ofRunes]
      rw [hbytes, ← ofRunes_append, ← hrest, ofRunes_runes]

end Text

end StateForge
