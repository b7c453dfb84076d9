import Mathlib.Data.List.Forall2
import StateForge.Proofs.Block.Rendering
import StateForge.Proofs.Compact.Tokens
import StateForge.Proofs.Yaml.Words

/-!
# The tokens of the block form

A block collection is a row of parts, each on a new line. `ScanState.PartScans` says what a part is
read as, where the first part opens the collection. Entries of mappings and items of lists are parts
(`partScans_entry`, `partScans_item`), and `blockScans_layout` puts parts together.

The value of a key is on its line or below it, and `ScanState.ValueScans` is the same for both.
-/

set_option autoImplicit false

namespace StateForge
namespace Yaml

namespace ScanState

variable {s : ScanState} {n : Nat} {indents : List Nat} {done : List Lexeme} {r : List Char}

/-! ## Keys -/

/-- After a name that may turn out to be a key. -/
def named (s : ScanState) (key : Text) : ScanState :=
  { s with
    cursor := s.cursor.advance key.length
    candidate? := s.noted
    keyAllowed := false
    tokens := ⟨s.cursor.line, .scalar key true⟩ :: s.tokens
    count := s.count + 1 }

theorem rest_named {key : Text} (hrest : s.cursor.rest = key.chars ++ r) :
    (s.named key).cursor.rest = r := by
  show s.cursor.rest.drop key.length = _
  rw [hrest, List.drop_left' key.length_chars]

theorem fetchFrom_identifier {allowed : Bool} (h : s.Holds allowed indents done) {key : Text}
    (hkey : key.isIdentifier = true) (hrest : s.cursor.rest = key.chars ++ ':' :: r)
    (hr : FollowsKey r) {x : Char} (hx : s.cursor.rest.head? = some x) :
    s.fetchFrom x = .ok (s.named key) := by
  obtain ⟨b, v, hcons, hover⟩ := exists_of_isIdentifier hkey
  obtain rfl : Char.ofNat b.toNat = x := by
    rw [hrest, hcons] at hx
    exact Option.some.inj hx
  have hword := isWordChar_of_isIdentifierPart (hover b (by simp [hcons]))
  have hvisible := isVisible_of_isWordChar hword
  have hblank : s.cursor.blankAt 0 = false := by
    rw [Cursor.blankAt, hrest, hcons]
    simp only [Text.chars_cons, List.cons_append, List.drop_zero, hvisible.notBlank,
      hvisible.notBreak, Bool.or_self]
  have hplain : s.startsPlain (Char.ofNat b.toNat) = true := by
    simp (disch := decide) only [startsPlain, hblank, beq_of_isWordChar hword, Bool.or_self,
      Bool.false_eq_true, if_false, Bool.not_false]
  have hunforced : Unforced s.candidate? := by
    rw [h.candidate]
    exact unforced_none
  have hflow : ({ s with candidate? := s.noted } : ScanState).inFlow = false := h.inFlow
  have hfetch : s.fetchPlainScalar = .ok (s.named key, true) := by
    rw [fetchPlainScalar, saveCandidate_eq hunforced]
    simp only [bind, Except.bind, hflow]
    rw [Cursor.fuel, scanPlain_identifier hkey hrest hr]
    rfl
  have hcomment : (s.named key).skipLineComment = s.named key := by
    refine skipLineComment_of_noComment ?_
    exact rest_named hrest ▸ IsVisible.noComment ⟨rfl, rfl, by decide⟩ r
  simp (disch := decide) only [fetchFrom, hplain, beq_of_isWordChar hword, Bool.false_and,
    Bool.false_eq_true, if_false, if_true]
  simp only [hfetch, bind, Except.bind, if_true, hcomment]
  rfl

theorem fetchFrom_colon (h : s.cursor.blankAt 1 = true) :
    s.fetchFrom ':' = skipLineComment <$> s.fetchValue := by
  simp [fetchFrom, h]

/-- **The colon makes the name a key**, and opens the mapping at its first key. -/
theorem fetchFrom_colon_named {isOpen : Bool} (h : s.Holds true (openAt isOpen n indents) done)
    (hcolumn : s.cursor.column = n) (hbelow : Below indents n) (hdepth : n < maxDepth) {key : Text}
    (hshort : key.length ≤ 1000) (hrest : s.cursor.rest = key.chars ++ ':' :: r)
    (hr : FollowsKey r) :
    ∃ s', (s.named key).fetchFrom ':' = .ok s' ∧ s'.OnLine (n :: indents)
      (done ++ (opening isOpen .blockMappingStart ++ [.key, .scalar key true, .value])) r := by
  have hcolon : (s.named key).cursor.rest = ':' :: r := rest_named hrest
  have hnamed : (s.named key).lexemes = done ++ [.scalar key true] :=
    h.lexemes ▸ s.lexemes_emit (.scalar key true)
  obtain ⟨ts, hinsert, hts⟩ := insert_eq (s := s.named key) (congrArg (· + 1) h.count) hnamed
    s.cursor.line .key
  obtain ⟨ts', hopen, hts'⟩ := openBlock_eq
    (s := { s.named key with tokens := ts, count := ts.length }) h.outer rfl hts h.indents hbelow
    hdepth s.cursor.line .blockMappingStart
  have hnoted : (s.named key).candidate? = some ⟨done.length, s.cursor.index, s.cursor.line, n,
      !s.inFlow && s.indents.head? == some s.cursor.column⟩ := by
    show s.noted = _
    rw [noted, h.keyAllowed, h.count_eq, ← hcolumn]
    rfl
  have hlive : (s.named key).liveCandidate? = .ok (s.named key).candidate? := by
    have hnear : s.cursor.index + key.length ≤ s.cursor.index + 1024 := by omega
    rw [liveCandidate?, hnoted]
    simp [KeyCandidate.isLive, named, hnear]
  have hafter : ((s.named key).cursor.advance 1).rest = r := by
    rw [Cursor.rest_advance, hcolon, List.drop_one, List.tail_cons]
  have hfetch : (s.named key).fetchFrom ':' = .ok
      { s.named key with
        cursor := (s.named key).cursor.advance 1
        indents := n :: indents
        candidate? := none
        tokens := ⟨s.cursor.line, .value⟩ :: ts'
        count := ts'.length + 1 } := by
    rw [fetchFrom_colon (hr.blankAt hcolon), fetchValue, hlive, hnoted]
    simp only [bind, Except.bind, hinsert, hopen]
    exact congrArg Except.ok (skipLineComment_of_noComment (hafter.symm ▸ hr.noComment))
  refine ⟨_, hfetch, ⟨h.outer, rfl, rfl, rfl, rfl, ?_⟩, hafter, ?_⟩
  · show List.map Token.lexeme (List.reverse (_ :: ts')) = _
    rw [List.reverse_cons, List.map_append, hts']
    simp
  · intro i hi
    show i < s.cursor.column + key.length + 1
    have := hbelow.cons.lt i hi
    omega

/-- After a token that is not the last one, the scanner goes on. -/
theorem Holds.goesOn {allowed : Bool} (h : s.Holds allowed indents done)
    (hlast : done.getLast? ≠ some .streamEnd) :
    ∀ t, s.tokens.head? = some t → t.lexeme ≠ .streamEnd := by
  intro t ht hend
  rw [← h.lexemes, ScanState.lexemes, List.getLast?_map, List.getLast?_reverse, ht] at hlast
  exact hlast (congrArg some hend)

theorem Fresh.fetches_name {key : Text} (h : s.Fresh n indents done (key.chars ++ ':' :: r))
    (hkey : key.isIdentifier = true) (hr : FollowsKey r) : Fetches s (s.ready.named key) := by
  obtain ⟨b, v, hcons, hover⟩ := exists_of_isIdentifier hkey
  have hword := isWordChar_of_isIdentifierPart (hover b (by simp [hcons]))
  have hrest : s.ready.cursor.rest = Char.ofNat b.toNat :: (Text.chars v ++ ':' :: r) := by
    rw [h.rest, hcons]
    rfl
  refine ⟨?_, ?_, ?_⟩
  · rw [fetch_of_ready hrest (fun hx => absurd (hx ▸ hword) (by decide))
      (Cursor.atDocumentMark_of_ne hrest (ne_of_isWordChar hword))]
    exact fetchFrom_identifier h.holds hkey h.rest hr (by rw [hrest]; rfl)
  · refine Nat.lt_of_lt_of_le ?_ h.shorter
    rw [rest_named h.rest, List.length_append, Text.length_chars, hcons]
    exact Nat.lt_add_of_pos_left (Nat.succ_pos _)
  · intro t ht
    cases ht
    simp

/-- Nothing stands between a name and its colon. -/
theorem ready_named {key : Text} {allowed : Bool} (h : s.Holds allowed indents done)
    (hrest : s.cursor.rest = key.chars ++ ':' :: r)
    (hindents : ∀ i ∈ indents, i ≤ s.cursor.column) : (s.named key).ready = s.named key := by
  refine ready_spaces (k := 0) (s := s.named key) h.outer (fun i hi => ?_) (rest_named hrest)
    ⟨rfl, rfl, by decide⟩
  exact (hindents i (h.indents ▸ hi)).trans (Nat.le_add_right _ _)

/-- **A key is read**, up to the colon. -/
theorem Fresh.key {isOpen : Bool} {key : Text}
    (h : s.Fresh n (openAt isOpen n indents) done (key.chars ++ ':' :: r))
    (hbelow : Below indents n) (hdepth : n < maxDepth) (hkey : key.isIdentifier = true)
    (hshort : key.length ≤ 1000) (hr : FollowsKey r) :
    ∃ s', Reaches s s' ∧ s'.OnLine (n :: indents)
      (done ++ (opening isOpen .blockMappingStart ++ [.key, .scalar key true, .value])) r := by
  obtain ⟨s', hcolon, hs'⟩ :=
    fetchFrom_colon_named h.holds h.column hbelow hdepth hshort h.rest hr
  have hrest : (s.ready.named key).cursor.rest = ':' :: r := rest_named h.rest
  have hready : (s.ready.named key).ready = s.ready.named key := by
    refine ready_named h.holds h.rest fun i hi => ?_
    rw [h.column]
    cases isOpen with
    | true => exact Nat.le_of_lt_succ (hbelow.cons.lt i hi)
    | false => exact (hbelow.lt i hi).le
  have hfetches : Fetches (s.ready.named key) s' := by
    refine ⟨?_, ?_, hs'.holds.goesOn (by simp [List.getLast?_append])⟩
    · rw [fetch_of_ready (hready.symm ▸ hrest) (by decide)
        (hready.symm ▸ Cursor.atDocumentMark_of_ne hrest (by decide)), hready]
      exact hcolon
    · rw [hrest, hs'.rest]
      exact Nat.lt_succ_self _
  exact ⟨s', .head (h.fetches_name hkey hr) (.single hfetches), hs'⟩

/-! ## Values -/

/-- A value starts after a space. -/
theorem OnLine.ready_space {x : Char} (h : s.OnLine indents done (' ' :: x :: r))
    (hx : IsVisible x) :
    s.ready.Holds false indents done ∧ s.ready.cursor.rest = x :: r ∧
      ∀ i ∈ indents, i < s.ready.cursor.column := by
  have hready : s.ready = { s with cursor := s.cursor.advance 1 } :=
    ready_spaces (k := 1) h.holds.outer
      (fun i hi => (h.right i (h.holds.indents ▸ hi)).le) h.rest hx
  rw [hready]
  refine ⟨{ h.holds with lexemes := h.holds.lexemes }, ?_, fun i hi => ?_⟩
  · rw [Cursor.rest_advance, h.rest]
    rfl
  · exact Nat.lt_succ_of_lt (h.right i hi)

/-- **A value on the line of its key is read**, if it is one token. -/
theorem OnLine.value {x : Char} {w : List Char} {lexeme : Lexeme}
    (h : s.OnLine indents done (' ' :: x :: (w ++ '\n' :: r))) (hx : IsVisible x)
    (hdirective : x ≠ '%') (hmark : x ≠ '-' ∧ x ≠ '.')
    (hfetch : ∀ t : ScanState, t.Holds false indents done →
      t.cursor.rest = x :: (w ++ '\n' :: r) →
      t.fetchFrom x = skipLineComment <$> .ok
        { t.emit lexeme with cursor := t.cursor.advance (w.length + 1), keyAllowed := false })
    (hlexeme : lexeme ≠ .streamEnd) :
    ∃ s', Reaches s s' ∧ s'.OnLine indents (done ++ [lexeme]) ('\n' :: r) := by
  obtain ⟨hholds, hrest, hright⟩ := h.ready_space hx
  have hafter : (s.ready.cursor.advance (w.length + 1)).rest = '\n' :: r := by
    rw [Cursor.rest_advance, hrest, List.drop_succ_cons, List.drop_left]
  have hline : ({ s.ready.emit lexeme with
      cursor := s.ready.cursor.advance (w.length + 1), keyAllowed := false } : ScanState).OnLine
      indents (done ++ [lexeme]) ('\n' :: r) := by
    refine ⟨⟨hholds.outer, hholds.candidate, rfl, congrArg (· + 1) hholds.count, hholds.indents,
      ?_⟩, hafter, fun i hi => ?_⟩
    · exact hholds.lexemes ▸ s.ready.lexemes_emit lexeme
    · exact Nat.lt_add_right _ (hright i hi)
  refine ⟨_, .single ⟨?_, ?_, hline.holds.goesOn (by simpa using hlexeme)⟩, hline⟩
  · rw [fetch_of_ready hrest hdirective (Cursor.atDocumentMark_of_ne hrest hmark),
      hfetch _ hholds hrest]
    refine congrArg Except.ok (skipLineComment_of_noComment ?_)
    rw [show _ = '\n' :: r from hafter]
    exact (followsKey_newline r).noComment
  · rw [hline.rest, h.rest]
    simp
    omega

theorem saveCandidate_of_not_keyAllowed (h : s.keyAllowed = false) : s.saveCandidate = .ok s := by
  rw [saveCandidate, h]
  rfl

/-- The text is read as these tokens after the colon of a key in column `n`, up to the end of the
line. -/
structure ValueScans (n : Nat) (w : Text) (lexemes : List Lexeme) : Prop where
  follows : ∀ r, FollowsKey (w.chars ++ '\n' :: r)
  reaches : ∀ (s : ScanState) (indents : List Nat) (done : List Lexeme) (r : List Char),
    Below indents n → s.OnLine (n :: indents) done (w.chars ++ '\n' :: r) →
    ∃ s', Reaches s s' ∧ s'.Ended (n + 1) (n :: indents) (done ++ lexemes) ('\n' :: r)

theorem valueScans_quoted {w : Text} (h : w.Over isQuotable) (n : Nat) :
    ValueScans n (Text.space :: Compact.quoted w) [.scalar w false] := by
  have hchars : ∀ r, Text.chars (Text.space :: Compact.quoted w) ++ '\n' :: r
      = ' ' :: '"' :: (w.chars ++ ['"'] ++ '\n' :: r) := by
    intro r
    rw [Text.chars_cons, chars_quoted]
    rfl
  have hquote : IsVisible '"' := ⟨rfl, rfl, by decide⟩
  refine ⟨fun r => hchars r ▸ followsKey_space hquote _, fun s indents done r _ hs => ?_⟩
  rw [hchars] at hs
  have hfetch : ∀ t : ScanState, t.Holds false (n :: indents) done →
      t.cursor.rest = '"' :: (w.chars ++ ['"'] ++ '\n' :: r) →
      t.fetchFrom '"' = skipLineComment <$> .ok { t.emit (.scalar w false) with
        cursor := t.cursor.advance ((w.chars ++ ['"']).length + 1), keyAllowed := false } := by
    intro t ht hrest
    have hskip := Cursor.skip_eq_advance hrest
    have hinside : t.cursor.skip.rest = w.chars ++ '"' :: '\n' :: r := by
      rw [hskip, Cursor.rest_advance, hrest]
      simp
    have hright : 0 < t.cursor.skip.column := by
      rw [hskip]
      exact Nat.succ_pos _
    have hfuel : w.length < t.cursor.fuel := by
      rw [Cursor.fuel, hrest]
      simp
      omega
    have hlength : 1 + (w.length + 1) = (w.chars ++ ['"']).length + 1 := by
      rw [List.length_append, Text.length_chars, List.length_singleton, Nat.add_comm]
    have hscan : scanQuoted false t.cursor.fuel [] t.cursor.skip
        = .ok (w.chars, t.cursor.advance ((w.chars ++ ['"']).length + 1)) := by
      rw [scanQuoted_quotable h hinside hright [] hfuel, hskip, Cursor.advance_advance, hlength]
      rfl
    show skipLineComment <$> t.fetchQuotedScalar false = _
    rw [fetchQuotedScalar, saveCandidate_of_not_keyAllowed ht.keyAllowed]
    simp only [bind, Except.bind, hscan, Text.ofChars_chars h.isAscii]
    rfl
  obtain ⟨s', hreaches, hs'⟩ := hs.value hquote (by decide) (by decide) hfetch (by simp)
  exact ⟨s', hreaches, hs'.ended _⟩

theorem valueScans_tag {w : Text} (h : w.isIdentifier = true) (n : Nat) :
    ValueScans n (Text.space :: Predicate.negationMark :: w) [.tag "!" w] := by
  have hchars : ∀ r, Text.chars (Text.space :: Predicate.negationMark :: w) ++ '\n' :: r
      = ' ' :: '!' :: (w.chars ++ '\n' :: r) := fun _ => rfl
  have hmark : IsVisible '!' := ⟨rfl, rfl, by decide⟩
  refine ⟨fun r => hchars r ▸ followsKey_space hmark _, fun s indents done r _ hs => ?_⟩
  rw [hchars] at hs
  have hfetch : ∀ t : ScanState, t.Holds false (n :: indents) done →
      t.cursor.rest = '!' :: (w.chars ++ '\n' :: r) →
      t.fetchFrom '!' = skipLineComment <$> .ok { t.emit (.tag "!" w) with
        cursor := t.cursor.advance (w.chars.length + 1), keyAllowed := false } := by
    intro t ht hrest
    show skipLineComment <$> t.fetchTag = _
    rw [fetchTag, saveCandidate_of_not_keyAllowed ht.keyAllowed]
    simp only [bind, Except.bind, scanTag_identifier h hrest]
    rw [Text.length_chars]
    rfl
  obtain ⟨s', hreaches, hs'⟩ := hs.value hmark (by decide) (by decide) hfetch (by simp)
  exact ⟨s', hreaches, hs'.ended _⟩

/-- A list of which nothing is written. -/
theorem valueScans_nothing (n : Nat) :
    ValueScans n (Text.space :: Text.ofString "[]") [.flowSequenceStart, .flowSequenceEnd] := by
  have hchars : ∀ r, Text.chars (Text.space :: Text.ofString "[]") ++ '\n' :: r
      = ' ' :: '[' :: ']' :: '\n' :: r := fun _ => rfl
  have hbracket : IsVisible '[' := ⟨rfl, rfl, by decide⟩
  refine ⟨fun r => hchars r ▸ followsKey_space hbracket _, fun s indents done r _ hs => ?_⟩
  rw [hchars] at hs
  obtain ⟨ht, hrest, hright⟩ := hs.ready_space hbracket
  -- the state between the brackets, and the one after them
  let u : ScanState := { s.ready.emitOver 1 .flowSequenceStart with
    candidate? := none, outer := [none], keyAllowed := true }
  let v : ScanState := { u.emitOver 1 .flowSequenceEnd with
    candidate? := none, outer := [], keyAllowed := false }
  have hu : u.cursor.rest = ']' :: '\n' :: r := by
    show s.ready.cursor.rest.drop 1 = _
    rw [hrest]
    rfl
  have hv : v.cursor.rest = '\n' :: r := by
    show u.cursor.rest.drop 1 = _
    rw [hu]
    rfl
  have hopen : Fetches s u := by
    refine ⟨?_, by rw [hu, hs.rest]; simp, fun t ht => by cases ht; simp⟩
    rw [fetch_of_ready hrest (by decide) (Cursor.atDocumentMark_of_ne hrest (by decide))]
    show skipLineComment <$> s.ready.fetchFlowStart .flowSequenceStart = _
    rw [fetchFlowStart, saveCandidate_of_not_keyAllowed ht.keyAllowed]
    simp only [bind, Except.bind, ht.outer, ht.candidate]
    exact congrArg Except.ok (skipLineComment_of_noComment
      (hu.symm ▸ IsVisible.noComment ⟨rfl, rfl, by decide⟩ _))
  have hclose : Fetches u v := by
    have hready : u.ready = u := by
      rw [ready, Cursor.fuel, toNextToken_spaces (k := 0) _ hu ⟨rfl, rfl, by decide⟩]
      exact closeBlocks_of_inFlow rfl
    refine ⟨?_, by rw [hu, hv]; simp, fun t ht => by cases ht; simp⟩
    rw [fetch_of_ready (hready.symm ▸ hu) (by decide)
      (hready.symm ▸ Cursor.atDocumentMark_of_ne hu (by decide)), hready]
    exact congrArg Except.ok (skipLineComment_of_noComment
      (hv.symm ▸ (followsKey_newline r).noComment))
  have hline : v.OnLine (n :: indents) (done ++ [.flowSequenceStart, .flowSequenceEnd])
      ('\n' :: r) := by
    refine ⟨⟨rfl, rfl, rfl, congrArg (· + 2) ht.count, ht.indents, ?_⟩, hv, fun i hi => ?_⟩
    · show ((s.ready.emit .flowSequenceStart).emit .flowSequenceEnd).lexemes = _
      rw [lexemes_emit, lexemes_emit, ht.lexemes, List.append_assoc]
      rfl
    · exact Nat.lt_add_right 2 (hright i hi)
  exact ⟨v, .head hopen (.single hclose), hline.ended _⟩

/-! ## Items -/

theorem fetchFrom_hyphen (h : s.cursor.blankAt 1 = true) : s.fetchFrom '-' = s.fetchBlockEntry := by
  simp [fetchFrom, h]

/-- **The hyphen of an item is read**, and opens the list at its first item. -/
theorem Fresh.hyphen {isOpen : Bool}
    (h : s.Fresh n (openAt isOpen n indents) done ('-' :: ' ' :: r))
    (hbelow : Below indents n) (hdepth : n < maxDepth) (hr : StartsVisibly r) :
    ∃ s', Reaches s s' ∧ s'.Fresh (n + 2) (n :: indents)
      (done ++ (opening isOpen .blockSequenceStart ++ [.blockEntry])) r := by
  obtain ⟨x, r, rfl, hx⟩ := hr
  have hmark : s.ready.cursor.atDocumentMark = false := by
    rw [Cursor.atDocumentMark, h.rest]
    simp
  have hblank : s.ready.cursor.blankAt 1 = true := by
    rw [Cursor.blankAt, h.rest]
    rfl
  obtain ⟨ts, hopen, hts⟩ := openBlock_eq h.holds.outer h.holds.count
    (h.holds.lexemes.trans (List.append_nil done).symm) h.holds.indents hbelow hdepth
    s.ready.cursor.line .blockSequenceStart
  let u : ScanState := { s.ready with
    cursor := s.ready.cursor.advance 1
    indents := n :: indents
    candidate? := none
    keyAllowed := true
    tokens := ⟨s.ready.cursor.line, .blockEntry⟩ :: ts
    count := ts.length + 1 }
  have hfetch : s.ready.fetchBlockEntry = .ok u := by
    rw [fetchBlockEntry]
    simp only [h.holds.inFlow, h.holds.keyAllowed, h.holds.candidate, h.column, h.holds.count_eq,
      hopen, bind, Except.bind, Bool.false_eq_true, if_false, Bool.not_true]
    rfl
  have hu : u.cursor.rest = List.replicate 1 ' ' ++ x :: r := by
    show s.ready.cursor.rest.drop 1 = _
    rw [h.rest]
    rfl
  have hready : u.ready = { u with cursor := u.cursor.advance 1 } := by
    refine ready_spaces h.holds.outer (fun i hi => ?_) hu hx
    have hle := hbelow.cons.lt i hi
    show i ≤ s.ready.cursor.column + 1
    rw [h.column]
    exact hle.le
  have hnext : (u.cursor.advance 1).rest = x :: r := by
    rw [Cursor.rest_advance, hu]
    rfl
  refine ⟨u, .single ⟨?_, ?_, fun t ht => by cases ht; simp⟩, ?_, ?_, ?_, ?_⟩
  · rw [fetch_of_ready h.rest (by decide) hmark, fetchFrom_hyphen hblank, hfetch]
  · refine Nat.lt_of_lt_of_le ?_ h.shorter
    rw [hu]
    simp
  · rw [hready]
    refine ⟨h.holds.outer, rfl, rfl, rfl, rfl, ?_⟩
    show List.map Token.lexeme (List.reverse (_ :: ts)) = _
    rw [List.reverse_cons, List.map_append, hts]
    simp
  · rw [hready, hnext]
  · rw [hready]
    show s.ready.cursor.column + 1 + 1 = n + 2
    rw [h.column]
  · rw [hu]
    simp

/-! ## Blocks -/

/-- The text is read as these tokens, as a part of the block collection in column `n`. The first
part opens the collection with `start`. -/
structure PartScans (start : Lexeme) (n : Nat) (w : Text) (lexemes : List Lexeme) : Prop where
  visible : ∀ r, StartsVisibly (w.chars ++ r)
  reaches : ∀ (s : ScanState) (isOpen : Bool) (indents : List Nat) (done : List Lexeme)
    (r : List Char), Below indents n →
    s.Fresh n (openAt isOpen n indents) done (w.chars ++ '\n' :: r) →
    ∃ s', Reaches s s' ∧
      s'.Ended (n + 1) (n :: indents) (done ++ (opening isOpen start ++ lexemes)) ('\n' :: r)

/-- The text is read as these tokens, as a block collection in column `n`. -/
structure BlockScans (n : Nat) (w : Text) (lexemes : List Lexeme) : Prop where
  visible : ∀ r, StartsVisibly (w.chars ++ r)
  reaches : ∀ (s : ScanState) (indents : List Nat) (done : List Lexeme) (r : List Char),
    Below indents n → s.Fresh n indents done (w.chars ++ '\n' :: r) →
    ∃ s', Reaches s s' ∧ s'.Ended n indents (done ++ lexemes) ('\n' :: r)

/-- A key and its value are an entry of a mapping. -/
theorem partScans_entry {key w : Text} {lexemes : List Lexeme} (hkey : key.isIdentifier = true)
    (hshort : key.length ≤ 1000) (hdepth : n < maxDepth) (h : ValueScans n w lexemes) :
    PartScans .blockMappingStart n (Block.keyed key w)
      (.key :: .scalar key true :: .value :: lexemes) := by
  refine ⟨?_, fun s isOpen indents done r hbelow hs => ?_⟩
  · obtain ⟨b, v, rfl, hover⟩ := exists_of_isIdentifier hkey
    have hb := isWordChar_of_isIdentifierPart (hover b (by simp))
    exact fun r => ⟨_, _, rfl, isVisible_of_isWordChar hb⟩
  · have hchars : (Block.keyed key w).chars ++ '\n' :: r
        = key.chars ++ ':' :: (w.chars ++ '\n' :: r) := by
      rw [Block.keyed, Text.chars_append, List.append_assoc]
      rfl
    rw [hchars] at hs
    obtain ⟨s₁, hfirst, hs₁⟩ := hs.key hbelow hdepth hkey hshort (h.follows r)
    obtain ⟨s₂, hsecond, hs₂⟩ := h.reaches s₁ indents _ r hbelow hs₁
    exact ⟨s₂, hfirst.trans hsecond, by simpa using hs₂⟩

/-- A block after a hyphen is an item of a list. -/
theorem partScans_item {w : Text} {lexemes : List Lexeme} (hdepth : n < maxDepth)
    (h : BlockScans (n + 2) w lexemes) :
    PartScans .blockSequenceStart n (0x2d :: Text.space :: w) (.blockEntry :: lexemes) := by
  refine ⟨fun r => ⟨_, _, rfl, rfl, rfl, by decide⟩, fun s isOpen indents done r hbelow hs => ?_⟩
  obtain ⟨s₁, hfirst, hs₁⟩ := Fresh.hyphen hs hbelow hdepth (h.visible _)
  obtain ⟨s₂, hsecond, hs₂⟩ := h.reaches s₁ _ _ r (hbelow.cons.mono (Nat.le_succ _)) hs₁
  have hread : done ++ (opening isOpen .blockSequenceStart ++ [.blockEntry]) ++ lexemes
      = done ++ (opening isOpen .blockSequenceStart ++ .blockEntry :: lexemes) := by
    simp
  exact ⟨s₂, hfirst.trans hsecond, hread ▸ hs₂.mono (Nat.le_succ _)⟩

theorem chars_spaces (n : Nat) : (Text.spaces n).chars = List.replicate n ' ' :=
  List.map_replicate

/-- A block in the lines after its key is a value. -/
theorem valueScans_block {w : Text} {lexemes : List Lexeme} (h : BlockScans (n + 2) w lexemes) :
    ValueScans n (Text.newline :: (Text.spaces (n + 2) ++ w)) lexemes := by
  have hchars : ∀ r, Text.chars (Text.newline :: (Text.spaces (n + 2) ++ w)) ++ '\n' :: r
      = '\n' :: (List.replicate (n + 2) ' ' ++ (w.chars ++ '\n' :: r)) := by
    intro r
    rw [Text.chars_cons, Text.chars_append, chars_spaces, List.cons_append, List.append_assoc]
    rfl
  refine ⟨fun r => hchars r ▸ followsKey_newline _, fun s indents done r hbelow hs => ?_⟩
  have hbelow' : Below (n :: indents) (n + 2) := hbelow.cons.mono (Nat.le_succ _)
  rw [hchars] at hs
  have hfresh := (hs.ended (n + 3)).fresh (Nat.lt_succ_self _) (fun i hi => (hbelow'.lt i hi).le)
    (h.visible _)
  obtain ⟨s', hreaches, hs'⟩ := h.reaches s _ _ r hbelow' hfresh
  exact ⟨s', hreaches, hs'.mono (Nat.le_succ _)⟩

theorem chars_below_cons (n : Nat) (w : Text) (ws : List Text) (r : List Char) :
    (Block.below n (w :: ws)).chars ++ r
      = '\n' :: (List.replicate n ' ' ++ (w.chars ++ ((Block.below n ws).chars ++ r))) := by
  rw [Block.below_cons, Text.chars_cons, Text.chars_append, Text.chars_append, chars_spaces]
  simp only [List.cons_append, List.append_assoc]
  rfl

/-- A part is followed by the end of its line. -/
theorem exists_newline (n : Nat) (ws : List Text) (r : List Char) :
    ∃ r', (Block.below n ws).chars ++ '\n' :: r = '\n' :: r' := by
  cases ws with
  | nil => exact ⟨r, rfl⟩
  | cons w ws => exact ⟨_, chars_below_cons n w ws _⟩

/-- After a part, the others are read. -/
theorem reaches_parts {start : Lexeme} {ws : List Text} {lss : List (List Lexeme)}
    (h : List.Forall₂ (PartScans start n) ws lss) (hbelow : Below indents n)
    (hs : s.Ended (n + 1) (n :: indents) done ((Block.below n ws).chars ++ '\n' :: r)) :
    ∃ s', Reaches s s' ∧ s'.Ended (n + 1) (n :: indents) (done ++ lss.flatten) ('\n' :: r) := by
  induction h generalizing s done with
  | nil => exact ⟨s, .refl, (List.append_nil done).symm ▸ hs⟩
  | @cons w lexemes ws lss hw _ ih =>
    rw [chars_below_cons] at hs
    have hfresh := hs.fresh (Nat.lt_succ_self n)
      (fun i hi => Nat.le_of_lt_succ (hbelow.cons.lt i hi)) (hw.visible _)
    obtain ⟨r', hr'⟩ := exists_newline n ws r
    rw [hr'] at hfresh
    obtain ⟨s₁, hfirst, hs₁⟩ := hw.reaches s true indents done r' hbelow hfresh
    rw [← hr'] at hs₁
    obtain ⟨s₂, hsecond, hs₂⟩ := ih hs₁
    have hread : done ++ (opening true start ++ lexemes) ++ lss.flatten
        = done ++ (lexemes :: lss).flatten := by
      simp [opening]
    exact ⟨s₂, hfirst.trans hsecond, hread ▸ hs₂⟩

/-- **A block collection is read**, if its parts are. -/
theorem blockScans_layout {start : Lexeme} {ws : List Text} {lss : List (List Lexeme)}
    (h : List.Forall₂ (PartScans start n) ws lss) (hne : ws ≠ []) :
    BlockScans n (Block.layout n ws) (start :: lss.flatten ++ [.blockEnd]) := by
  cases h with
  | nil => exact absurd rfl hne
  | @cons w lexemes ws lss hw hws =>
    have hchars : ∀ r, (Block.layout n (w :: ws)).chars ++ r
        = w.chars ++ ((Block.below n ws).chars ++ r) := by
      intro r
      rw [Block.layout, Text.chars_append, List.append_assoc]
    refine ⟨fun r => hchars r ▸ hw.visible _, fun s indents done r hbelow hs => ?_⟩
    obtain ⟨r', hr'⟩ := exists_newline n ws r
    rw [hchars, hr'] at hs
    obtain ⟨s₁, hfirst, hs₁⟩ := hw.reaches s false indents done r' hbelow hs
    rw [← hr'] at hs₁
    obtain ⟨s₂, hsecond, hs₂⟩ := reaches_parts hws hbelow hs₁
    have hread : done ++ (opening false start ++ lexemes) ++ lss.flatten ++ [.blockEnd]
        = done ++ (start :: (lexemes :: lss).flatten ++ [.blockEnd]) := by
      simp [opening]
    exact ⟨s₂, hfirst.trans hsecond, hread ▸ hs₂.leave⟩

/-! ## The end of the text -/

/-- **The end of the text closes everything.** -/
theorem Ended.fetch_end {bound : Nat} (h : s.Ended bound [] done ['\n']) :
    ∃ s' line ts, s.fetch true = .ok s' ∧ s'.tokens = ⟨line, .streamEnd⟩ :: ts ∧
      ts.reverse.map Token.lexeme = done := by
  obtain ⟨more, before, hholds, -, rfl⟩ := h.closes
  let t : ScanState := { s with
    cursor := ⟨[], s.cursor.index + 1, s.cursor.line + 1, 0⟩
    keyAllowed := true }
  have hnext : toNextToken s.cursor.fuel s = t := by
    rw [toNextToken_newline hholds.outer h.rest, h.rest]
    rfl
  obtain ⟨closed, rest, hindents, hclosed⟩ := t.closeDeeper_eq 0 t.indents
  let u : ScanState := { t.closing closed.length with indents := rest }
  have hclose : t.closeBlocks = u := by
    rw [closeBlocks, if_neg (by simp [t, inFlow, hholds.outer])]
    exact hclosed
  have hdrop : u.closeAllBlocks.dropCandidate = .ok
      { u.closing rest.length with indents := [], candidate? := none } := by
    have hall : u.closeAllBlocks = { u.closing rest.length with indents := [] } :=
      closeAllBlocks_eq hholds.outer
    rw [hall, dropCandidate_eq]
    exact fun k hk => absurd (hholds.candidate.symm.trans hk) (by simp)
  have hfetch : s.fetch true = .ok ({ u.closing rest.length with
      indents := [], candidate? := none, keyAllowed := false }.emit .streamEnd) := by
    rw [fetch]
    simp only [hnext, hclose]
    show (u.closeAllBlocks.dropCandidate >>= fun s =>
      pure ({ s with keyAllowed := false }.emit .streamEnd)) >>= _ = _
    rw [hdrop]
    rfl
  have hlength : more.length = closed.length + rest.length := by
    have hmore : more ++ [] = closed ++ rest := hholds.indents.symm.trans hindents
    rw [← List.length_append, ← hmore, List.append_nil]
  refine ⟨_, _, _, hfetch, rfl, ?_⟩
  calc (u.closing rest.length).lexemes
      = (t.closing closed.length).lexemes ++ List.replicate rest.length .blockEnd :=
        u.lexemes_closing _
    _ = before ++ List.replicate closed.length .blockEnd
          ++ List.replicate rest.length .blockEnd := by
        rw [lexemes_closing, show t.lexemes = before from hholds.lexemes]
    _ = before ++ List.replicate more.length .blockEnd := by
        rw [List.append_assoc, List.replicate_append_replicate, hlength]

end ScanState

/-- **The tokens of a text that is one block collection.** -/
theorem Token.scan_of_blockScans {w : Text} {lexemes : List Lexeme}
    (h : ScanState.BlockScans 0 w lexemes) :
    (Token.scan ⟨(w ++ [Text.newline]).chars, true⟩).map Token.lexeme
      = lexemes ++ [.streamEnd] := by
  have hchars : (w ++ [Text.newline]).chars = w.chars ++ ['\n'] := Text.chars_append w _
  obtain ⟨x, r, hvisible, hx⟩ := h.visible ['\n']
  rw [Token.scan]
  generalize hstart : ({ cursor := { rest := (w ++ [Text.newline]).chars } } : ScanState) = s
  have hready : s.ready = s := by
    subst hstart
    exact ScanState.ready_spaces (k := 0) rfl (by simp) (hchars.trans hvisible) hx
  have hfresh : s.Fresh 0 [] [] (w.chars ++ ['\n']) := by
    refine ⟨?_, ?_, ?_, ?_⟩
    · rw [hready, ← hstart]
      exact ⟨rfl, rfl, rfl, rfl, rfl, rfl⟩
    · rw [hready, ← hstart, hchars]
    · rw [hready, ← hstart]
    · rw [← hstart, hchars]
  obtain ⟨s', hreaches, hs'⟩ := h.reaches s [] [] [] ⟨by simp, by simp⟩ hfresh
  obtain ⟨fuel, hfuel, hrun⟩ := ScanState.run_of_reaches hreaches
    (show s.cursor.rest.length < (w ++ [Text.newline]).chars.length + 2 by subst hstart; simp)
  obtain ⟨fuel, rfl⟩ := Nat.exists_eq_add_one.mpr (Nat.zero_lt_of_lt hfuel)
  obtain ⟨s'', line, ts, hfetch, htokens, hts⟩ := hs'.fetch_end
  rw [hrun, ScanState.run, hfetch]
  simp only [htokens, List.reverse_cons, List.map_append, hts]
  rfl

end Yaml
end StateForge
