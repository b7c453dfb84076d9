import StateForge.Proofs.Yaml.Indentation

/-!
# Identifiers in a text

An identifier without quotes is read as a whole, as a plain scalar where it is a key
(`scanPlain_identifier`), and as the name of a tag where an exclamation mark is in front of it
(`scanTag_identifier`). In both cases it matters what follows. The other way round, a tag that was
read is what is written there, if it has a handle and no escapes (`ofChars_of_scanTag`).
-/

set_option autoImplicit false

namespace StateForge
namespace Yaml

/-- The characters of identifiers. -/
def isWordChar (x : Char) : Bool :=
  isNameChar x && x != '-'

theorem isWordChar_of_isIdentifierPart {b : UInt8} (h : isIdentifierPart b = true) :
    isWordChar (Char.ofNat b.toNat) = true := by
  have hall : ∀ n < 256, isIdentifierPart (UInt8.ofNat n) = true →
      isWordChar (Char.ofNat n) = true := by
    decide +kernel
  exact hall b.toNat b.toNat_lt (by rwa [UInt8.ofNat_toNat])

theorem beq_of_isWordChar {x y : Char} (hx : isWordChar x = true) (hy : isWordChar y = false) :
    (x == y) = false := by
  refine beq_false_of_ne ?_
  rintro rfl
  exact absurd (hx.symm.trans hy) (by simp)

theorem ne_of_isWordChar {x : Char} (h : isWordChar x = true) : x ≠ '-' ∧ x ≠ '.' :=
  ⟨fun hx => absurd (hx ▸ h) (by decide), fun hx => absurd (hx ▸ h) (by decide)⟩

theorem isVisible_of_isWordChar {x : Char} (h : isWordChar x = true) : ScanState.IsVisible x := by
  refine ⟨?_, ?_, fun hx => absurd (hx ▸ h) (by decide)⟩
  · simp (disch := decide) only [isBlank, beq_of_isWordChar h, Bool.or_self]
  · simp (disch := decide) only [isBreak, beq_of_isWordChar h, Bool.or_self]

/-- An identifier has a first character. -/
theorem exists_of_isIdentifier {w : Text} (h : w.isIdentifier = true) :
    ∃ b v, w = b :: v ∧ w.Over isIdentifierPart := by
  cases w with
  | nil => exact absurd h (by simp [Text.isIdentifier])
  | cons b v =>
    rw [Text.isIdentifier, Bool.and_eq_true, List.all_eq_true] at h
    exact ⟨b, v, rfl, List.forall_mem_cons.mpr ⟨by rw [isIdentifierPart, h.1, Bool.true_or], h.2⟩⟩

/-- What follows the colon of a key: a blank or the end of the line, and no comment. -/
structure FollowsKey (r : List Char) : Prop where
  blank : ∃ y r', r = y :: r' ∧ (isBlank y || isBreak y) = true
  noComment : (r.dropWhile isBlank).head? ≠ some '#'

theorem followsKey_space {x : Char} (hx : ScanState.IsVisible x) (r : List Char) :
    FollowsKey (' ' :: x :: r) := by
  refine ⟨⟨_, _, rfl, rfl⟩, ?_⟩
  rw [List.dropWhile_cons_of_pos (by decide)]
  exact hx.noComment r

theorem followsKey_newline (r : List Char) : FollowsKey ('\n' :: r) :=
  ⟨⟨_, _, rfl, rfl⟩, by rw [List.dropWhile_cons_of_neg (by decide)]; simp⟩

theorem FollowsKey.blankAt {c : Cursor} {x : Char} {r : List Char} (h : FollowsKey r)
    (hrest : c.rest = x :: r) : c.blankAt 1 = true := by
  obtain ⟨y, r', rfl, hy⟩ := h.blank
  rw [Cursor.blankAt, hrest]
  exact hy

theorem scanWord_identifier {w : Text} (h : w.Over isIdentifierPart) {c : Cursor} {r : List Char}
    (hrest : c.rest = w.chars ++ ':' :: r) (hr : FollowsKey r) (word : List Char) {fuel : Nat}
    (hfuel : w.length < fuel) :
    scanWord false fuel word c = (word.reverse ++ w.chars, c.advance w.length) := by
  induction w generalizing word c fuel with
  | nil =>
    obtain ⟨fuel, rfl⟩ := Nat.exists_eq_add_one.mpr (Nat.zero_lt_of_lt hfuel)
    have hends : endsPlain false c = true := by
      rw [endsPlain, hrest]
      simp [hr.blankAt hrest]
    rw [scanWord, hrest]
    simp only [Text.chars_nil, List.nil_append, hends, Bool.or_true, if_true, List.append_nil]
    rfl
  | cons b w ih =>
    obtain ⟨fuel, rfl⟩ := Nat.exists_eq_add_one.mpr (Nat.zero_lt_of_lt hfuel)
    obtain ⟨hb, hw⟩ := List.forall_mem_cons.mp h
    have hx := isWordChar_of_isIdentifierPart hb
    have hvisible := isVisible_of_isWordChar hx
    rw [Text.chars_cons, List.cons_append] at hrest
    have hends : endsPlain false c = false := by
      rw [endsPlain, hrest]
      simp only [beq_of_isWordChar hx (show isWordChar ':' = false by decide), Bool.false_and,
        Bool.or_self]
    have hskip := Cursor.skip_eq_advance hrest
    have hnext : c.skip.rest = Text.chars w ++ ':' :: r := by
      rw [hskip, Cursor.rest_advance, hrest]
      rfl
    rw [scanWord, hrest]
    simp only [hvisible.notBlank, hvisible.notBreak, hends, Bool.or_self, Bool.false_eq_true,
      if_false]
    rw [ih hw hnext _ (Nat.lt_of_succ_lt_succ hfuel), hskip, Cursor.advance_advance,
      List.reverse_cons, List.append_assoc, List.singleton_append, Nat.add_comm 1]
    rfl

/-- **A name before a colon is a plain scalar.** -/
theorem scanPlain_identifier {w : Text} (h : w.isIdentifier = true) {c : Cursor} {r : List Char}
    (hrest : c.rest = w.chars ++ ':' :: r) (hr : FollowsKey r) (indent fuel : Nat) :
    scanPlain false indent (fuel + 1) [] .empty c = .ok ⟨w, c.advance w.length, false⟩ := by
  obtain ⟨b, v, hcons, hover⟩ := exists_of_isIdentifier h
  have hx := isWordChar_of_isIdentifierPart (hover b (by simp [hcons]))
  have hhead : c.rest.head? = some (Char.ofNat b.toNat) := by
    rw [hrest, hcons]
    rfl
  have hmark : c.atDocumentMark = false := by
    rw [hcons] at hrest
    exact Cursor.atDocumentMark_of_ne hrest (ne_of_isWordChar hx)
  have hcomment : c.isOn '#' = false := by
    rw [Cursor.isOn, hhead]
    simpa using beq_of_isWordChar hx (y := '#') (by decide)
  have hword : scanWord false c.fuel [] c = (w.chars, c.advance w.length) := by
    refine scanWord_identifier hover hrest hr [] ?_
    rw [Cursor.fuel, hrest, List.length_append, Text.length_chars]
    omega
  have hnext : (c.advance w.length).rest = ':' :: r := by
    rw [Cursor.rest_advance, hrest, List.drop_left' w.length_chars]
  have hblank : (c.advance w.length).blankAt 0 = false := by
    rw [Cursor.blankAt, hnext]
    rfl
  have hne : (w.chars == []) = false := by
    rw [hcons]
    rfl
  have hascii : Text.ofChars w.chars = w :=
    Text.ofChars_chars (over_quotable_of_isIdentifier h).isAscii
  rw [scanPlain]
  simp only [hmark, hcomment, hword, hne, hblank, Bool.or_self, Bool.false_eq_true, if_false,
    Bool.not_false, Bool.true_or, if_true, List.nil_append, Gap.folded, Gap.empty, hascii]
  rfl

/-- **A name after an exclamation mark is a tag.** -/
theorem scanTag_identifier {w : Text} (h : w.isIdentifier = true) {c : Cursor} {r : List Char}
    (hrest : c.rest = '!' :: (w.chars ++ '\n' :: r)) :
    scanTag c = .ok (.tag "!" w, c.advance (w.length + 1)) := by
  obtain ⟨b, v, hcons, hover⟩ := exists_of_isIdentifier h
  have hchars : ∀ x ∈ w.chars, isWordChar x = true := by
    intro x hx
    obtain ⟨b, hb, rfl⟩ := List.mem_map.mp hx
    exact isWordChar_of_isIdentifierPart (hover b hb)
  have hskip : c.skip.rest = w.chars ++ '\n' :: r := by
    rw [Cursor.skip_eq_advance hrest, Cursor.rest_advance, hrest]
    rfl
  have hname : c.skip.rest.takeWhile isNameChar = w.chars := by
    rw [hskip, List.takeWhile_append_of_pos, List.takeWhile_cons_of_neg (by decide),
      List.append_nil]
    exact fun x hx => (Bool.and_eq_true _ _ ▸ hchars x hx).1
  have hnext : (c.advance (w.length + 1)).rest = '\n' :: r := by
    rw [Cursor.rest_advance, hrest, List.drop_succ_cons, List.drop_left' w.length_chars]
  have hverbatim : c.skip.isOn '<' = false := by
    rw [Cursor.isOn, hskip, hcons]
    simpa using beq_of_isWordChar (hchars _ (by simp [hcons])) (y := '<') (by decide)
  have hascii : Text.ofChars w.chars = w :=
    Text.ofChars_chars (over_quotable_of_isIdentifier h).isAscii
  have hhandle : scanHandle c = .ok ('!' :: w.chars, c.advance (w.length + 1)) := by
    have hmark : c.isOn '!' = true := by
      rw [Cursor.isOn, hrest]
      rfl
    have hsecond : (c.advance (w.length + 1)).isOn '!' = false := by
      rw [Cursor.isOn, hnext]
      rfl
    simp only [scanHandle, hmark, if_true, hname, Text.length_chars, hsecond, Bool.false_eq_true,
      if_false]
  have hlast : (('!' :: w.chars).getLast? == some '!') = false := by
    obtain ⟨front, last, hlast⟩ := List.eq_nil_or_concat w.chars |>.resolve_left (by simp [hcons])
    rw [hlast, List.concat_eq_append, ← List.cons_append, List.getLast?_concat]
    simpa using beq_of_isWordChar (hchars last (by simp [hlast])) (y := '!') (by decide)
  have huri : scanUri (c.advance (w.length + 1)).fuel w (c.advance (w.length + 1))
      = .ok (w, c.advance (w.length + 1)) := by
    rw [Cursor.fuel, scanUri, hnext]
    rfl
  have hshort : scanShorthandTag c = .ok (.tag "!" w, c.advance (w.length + 1)) := by
    have hne : (w == []) = false := by
      rw [hcons]
      rfl
    rw [scanShorthandTag, hhandle]
    simp only [bind, Except.bind, hlast, Bool.and_false, Bool.false_eq_true, if_false,
      List.tail_cons, hascii, huri, hne]
    rfl
  have hblank : (c.advance (w.length + 1)).blankAt 0 = true := by
    rw [Cursor.blankAt, hnext]
    rfl
  rw [scanTag, hverbatim, hshort]
  simp only [bind, Except.bind, Bool.false_eq_true, if_false, hblank, if_true]
  rfl

/-! ## Tags as they are written -/

theorem Cursor.suffix_skip (c : Cursor) : c.skip.rest <:+ c.rest := by
  rw [skip]
  split
  · exact List.suffix_refl _
  · rename_i hrest
    rw [hrest]
    exact List.suffix_cons _ _

theorem suffix_of_scanTailOctets {n : Nat} {bytes : Text} {c c' : Cursor}
    (h : scanTailOctets n c = .ok (bytes, c')) : c'.rest <:+ c.rest := by
  induction n generalizing c bytes with
  | zero =>
    cases h
    exact List.suffix_refl _
  | succ n ih =>
    rw [scanTailOctets] at h
    split at h
    · split at h
      · obtain ⟨⟨tail, after⟩, htail, hend⟩ := exists_of_bind_eq_ok h
        cases hend
        exact (ih htail).trans (List.drop_suffix 3 c.rest)
      · exact absurd h (by simp)
    · exact absurd h (by simp)

/-- An escape is at least one character long. -/
theorem suffix_of_scanOctets {bytes : Text} {c c' : Cursor} (h : scanOctets c = .ok (bytes, c')) :
    c'.rest <:+ c.rest.tail := by
  rw [scanOctets] at h
  split at h
  · exact absurd h (by simp)
  · split at h
    · exact absurd h (by simp)
    · obtain ⟨⟨tail, after⟩, htail, hend⟩ := exists_of_bind_eq_ok h
      cases hend
      refine (suffix_of_scanTailOctets htail).trans ?_
      rw [Cursor.rest_advance, ← List.drop_one]
      exact (List.drop_drop (i := 2) (j := 1) (l := c.rest)) ▸ List.drop_suffix 2 (c.rest.drop 1)

theorem suffix_of_scanUri {fuel : Nat} {text text' : Text} {c c' : Cursor}
    (h : scanUri fuel text c = .ok (text', c')) : c'.rest <:+ c.rest := by
  induction fuel generalizing text c with
  | zero =>
    cases h
    exact List.suffix_refl _
  | succ fuel ih =>
    rw [scanUri] at h
    split at h
    · cases h
      exact List.suffix_refl _
    · split at h
      · obtain ⟨⟨bytes, after⟩, hbytes, hend⟩ := exists_of_bind_eq_ok h
        exact (ih hend).trans ((suffix_of_scanOctets hbytes).trans (List.tail_suffix _))
      · split at h
        · exact (ih h).trans c.suffix_skip
        · cases h
          exact List.suffix_refl _

/-- What is left after a character is shorter than what it is a part of. -/
theorem exists_cons_of_suffix_tail {x : Char} {xs read left : List Char}
    (h : x :: xs = read ++ left) (hleft : left <:+ xs) :
    ∃ read', read = x :: read' ∧ xs = read' ++ left := by
  cases read with
  | nil =>
    have hlength := hleft.length_le
    rw [List.nil_append] at h
    rw [← h, List.length_cons] at hlength
    omega
  | cons y read' =>
    obtain ⟨rfl, hxs⟩ := List.cons.inj h
    exact ⟨read', rfl, hxs⟩

/-- Without an escape, what is read of a tag is the text that stands there. -/
theorem eq_of_scanUri {fuel : Nat} {text text' : Text} {c c' : Cursor} {read : List Char}
    (h : scanUri fuel text c = .ok (text', c')) (hread : c.rest = read ++ c'.rest)
    (hplain : '%' ∉ read) : text' = text ++ Text.ofChars read := by
  have hdone : ∀ {left read : List Char} (text : Text), left = read ++ left →
      text = text ++ Text.ofChars read := by
    intro left read text hnone
    rw [List.self_eq_append_left.mp hnone, Text.ofChars, List.flatMap_nil, List.append_nil]
  induction fuel generalizing text c read with
  | zero =>
    cases h
    exact hdone _ hread
  | succ fuel ih =>
    rw [scanUri] at h
    split at h
    · cases h
      exact hdone _ hread
    · rename_i x xs hrest
      split at h
      · rename_i hpercent
        obtain ⟨⟨bytes, after⟩, hbytes, hend⟩ := exists_of_bind_eq_ok h
        have hshorter := (suffix_of_scanUri hend).trans (suffix_of_scanOctets hbytes)
        rw [hrest] at hread hshorter
        obtain ⟨read', rfl, -⟩ := exists_cons_of_suffix_tail hread hshorter
        rw [beq_iff_eq.mp hpercent] at hplain
        exact absurd List.mem_cons_self hplain
      · split at h
        · have hskip : c.skip.rest = xs := by rw [Cursor.skip, hrest]
          rw [hrest] at hread
          obtain ⟨read', rfl, hxs⟩ := exists_cons_of_suffix_tail hread (hskip ▸ suffix_of_scanUri h)
          rw [ih h (hskip.trans hxs) fun hmem => hplain (List.mem_cons_of_mem _ hmem)]
          simp [Text.ofChars]
        · cases h
          exact hdone _ hread

/-- A handle is read as it stands there. -/
theorem rest_of_scanHandle {c c' : Cursor} {handle : List Char}
    (h : scanHandle c = .ok (handle, c')) :
    c.rest = handle ++ c'.rest ∧ handle = '!' :: handle.tail := by
  rw [scanHandle] at h
  split at h
  · rename_i hmark
    obtain ⟨xs, hrest⟩ := List.head?_eq_some_iff.mp (beq_iff_eq.mp hmark)
    have hskip : c.skip.rest = xs := by rw [Cursor.skip, hrest]
    obtain ⟨ys, hname⟩ := List.takeWhile_prefix isNameChar (l := xs)
    simp only [hskip] at h
    generalize xs.takeWhile isNameChar = name at h hname
    have hnext : (c.advance (name.length + 1)).rest = ys := by
      rw [Cursor.rest_advance, hrest, List.drop_succ_cons, ← hname, List.drop_left]
    split at h
    · rename_i hsecond
      cases h
      obtain ⟨zs, hzs⟩ := List.head?_eq_some_iff.mp (beq_iff_eq.mp hsecond)
      refine ⟨?_, rfl⟩
      rw [Cursor.skip, hzs, hrest, ← hname, ← hnext, hzs]
      simp
    · cases h
      exact ⟨by rw [hrest, hnext, List.cons_append, hname], rfl⟩
  · exact absurd h (by simp)

/-- A tag with a handle, up to what has to follow it. -/
theorem ofChars_of_scanShorthandTag {c c' : Cursor} {handle suffix : Text} {written : List Char}
    (h : scanShorthandTag c = .ok (.tag handle suffix, c')) (hwritten : c.rest = written ++ c'.rest)
    (hplain : '%' ∉ written) (hhandle : handle ≠ []) :
    Text.ofChars written = handle ++ suffix := by
  rw [scanShorthandTag] at h
  obtain ⟨⟨chars, between⟩, hchars, h⟩ := exists_of_bind_eq_ok h
  obtain ⟨hrest, hmark⟩ := rest_of_scanHandle hchars
  -- what is written is the handle and what is read after it
  have hread : ∀ {fuel : Nat} {text uri : Text}, scanUri fuel text between = .ok (uri, c') →
      ∃ read, written = chars ++ read ∧ uri = text ++ Text.ofChars read := by
    intro fuel text uri huri
    obtain ⟨read, hbetween⟩ := suffix_of_scanUri huri
    have hsplit : written = chars ++ read := by
      refine List.append_cancel_right (?_ : written ++ c'.rest = chars ++ read ++ c'.rest)
      rw [← hwritten, hrest, List.append_assoc, hbetween]
    refine ⟨read, hsplit, eq_of_scanUri huri hbetween.symm fun hmem => hplain ?_⟩
    rw [hsplit]
    exact List.mem_append_right _ hmem
  simp only at h
  split at h
  · obtain ⟨⟨uri, after⟩, huri, hend⟩ := exists_of_bind_eq_ok h
    simp only at hend
    split at hend
    · exact absurd hend (by simp)
    · cases hend
      obtain ⟨read, rfl, rfl⟩ := hread huri
      rw [Text.ofChars_append, List.nil_append]
  · obtain ⟨⟨uri, after⟩, huri, hend⟩ := exists_of_bind_eq_ok h
    simp only at hend
    split at hend
    · cases hend
      exact absurd rfl hhandle
    · cases hend
      obtain ⟨read, rfl, rfl⟩ := hread huri
      rw [hmark, Text.ofChars_append]
      rfl

/-- **A tag with a handle is what was written**, if there is no escape in it. -/
theorem ofChars_of_scanTag {c c' : Cursor} {handle suffix : Text} {written : List Char}
    (h : scanTag c = .ok (.tag handle suffix, c')) (hwritten : c.rest = written ++ c'.rest)
    (hplain : '%' ∉ written) (hhandle : handle ≠ []) :
    Text.ofChars written = handle ++ suffix := by
  rw [scanTag] at h
  split at h
  · obtain ⟨⟨tag, after⟩, htag, hend⟩ := exists_of_bind_eq_ok h
    simp only at hend
    split at hend
    · cases hend
      rw [scanVerbatimTag] at htag
      obtain ⟨⟨uri, after⟩, -, hend⟩ := exists_of_bind_eq_ok htag
      simp only at hend
      split at hend
      · exact absurd hend (by simp)
      · cases hend
        exact absurd rfl hhandle
    · exact absurd hend (by simp)
  · obtain ⟨⟨tag, after⟩, htag, hend⟩ := exists_of_bind_eq_ok h
    simp only at hend
    split at hend
    · cases hend
      exact ofChars_of_scanShorthandTag htag hwritten hplain hhandle
    · exact absurd hend (by simp)

end Yaml
end StateForge
