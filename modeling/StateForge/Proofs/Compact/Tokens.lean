import Mathlib.Data.List.Forall2
import StateForge.Proofs.Yaml.Scanning

/-!
# The tokens of the compact form

`ScanState.Scans` says that a text is read as certain tokens, wherever a value may stand: as the
whole document, as an item, or after a colon. Each of the three forms of the compact rendering keeps
it (`ScanState.scans_quoted`, `ScanState.scans_list`, `ScanState.scans_record`).

A token that may turn out to be a key is a candidate as long as the value it belongs to is read, so
the state after a value is known only together with the candidate. `ScanState.past` is that state.
Inside of a collection the candidate of the collection itself has to wait, and `ScanState.within`
says what the state is there. An entry leaves some candidate behind, and it does not matter which
one, as a comma or a bracket drops it (`ScanState.fetches_comma`, `ScanState.fetches_close`); only a
colon makes use of it (`ScanState.fetches_colon`).
-/

set_option autoImplicit false

namespace StateForge
namespace Yaml

namespace ScanState

/-! ## Indicators -/

/-- The characters of the compact form outside of quotes. -/
def isIndicator (x : Char) : Bool :=
  x == '[' || x == ']' || x == '{' || x == '}' || x == ',' || x == ':' || x == '"'

theorem startsToken_of_isIndicator {x : Char} (h : isIndicator x = true) : StartsToken x := by
  simp only [isIndicator, Bool.or_eq_true, beq_iff_eq] at h
  rcases h with (((((rfl | rfl) | rfl) | rfl) | rfl) | rfl) | rfl <;>
    exact ⟨rfl, rfl, by decide, by decide, by decide, by decide⟩

/-- An indicator follows, or nothing. -/
def Tight (r : List Char) : Prop :=
  ∀ x, r.head? = some x → isIndicator x = true

theorem tight_nil : Tight [] := fun _ hx => absurd hx (by simp)

theorem tight_cons {x : Char} (h : isIndicator x = true) (r : List Char) : Tight (x :: r) := by
  intro y hy
  cases hy
  exact h

theorem Tight.noComment {r : List Char} (h : Tight r) : (r.dropWhile isBlank).head? ≠ some '#' := by
  cases r with
  | nil => exact fun hx => absurd hx (by simp)
  | cons x r =>
    have hx := startsToken_of_isIndicator (h x rfl)
    rw [List.dropWhile_cons_of_neg (by simp [hx.notBlank])]
    exact fun hcomment => hx.notComment (Option.some.inj hcomment)

/-! ## States -/

/-- `n` characters later, with more tokens. -/
def read (s : ScanState) (n : Nat) (lexemes : List Lexeme) : ScanState :=
  { s with
    cursor := s.cursor.advance n
    tokens := (lexemes.map (Token.mk s.cursor.line)).reverse ++ s.tokens
    count := s.count + lexemes.length }

/-- After a value, which is a key if a colon follows. -/
def past (s : ScanState) (n : Nat) (lexemes : List Lexeme) : ScanState :=
  { s.read n lexemes with candidate? := s.noted, keyAllowed := false }

/-- Inside the collection that starts in `s`. -/
def within (s : ScanState) (k? : Option KeyCandidate) (allowed : Bool) (n : Nat)
    (lexemes : List Lexeme) : ScanState :=
  { s.read n lexemes with
    candidate? := k?, outer := s.noted :: s.outer, keyAllowed := allowed }

/-- One more token, of one character. -/
theorem read_concat (s : ScanState) (n : Nat) (before : List Lexeme) (lexeme : Lexeme) :
    s.read (n + 1) (before ++ [lexeme]) = (s.read n before).emitOver 1 lexeme := by
  simp [read, emitOver, emit, emitAt, Nat.add_assoc]

/-- A value may stand here, in any place where the compact form has one. -/
structure AtValue (s : ScanState) : Prop where
  flow : s.inFlow = true ∨ s.indents = []
  unforced : Unforced s.candidate?

theorem past_within (s : ScanState) (k? : Option KeyCandidate) (allowed : Bool) (m n : Nat)
    (before lexemes : List Lexeme) :
    (s.within k? allowed m before).past n lexemes =
      s.within (s.within k? allowed m before).noted false (m + n) (before ++ lexemes) := by
  simp [past, within, read, Nat.add_assoc]

/-- Where no key may start, the candidate stays the same. -/
theorem noted_within (s : ScanState) (k? : Option KeyCandidate) (n : Nat) (before : List Lexeme) :
    (s.within k? false n before).noted = k? := rfl

/-! ## Steps -/

/-- A token that starts with an indicator. -/
theorem fetches_of_fetchFrom {s s' : ScanState} {x : Char} {w r : List Char}
    (hflow : s.inFlow = true ∨ s.indents = []) (hrest : s.cursor.rest = x :: (w ++ r))
    (hx : isIndicator x = true) (hfetch : s.fetchFrom x = skipLineComment <$> .ok s')
    (hcursor : s'.cursor = s.cursor.advance (w.length + 1)) (htight : Tight r)
    (hgoes : ∀ t, s'.tokens.head? = some t → t.lexeme ≠ .streamEnd) : Fetches s s' := by
  have hclose : s.closeBlocks = s := by
    rcases hflow with hflow | hflow
    · exact closeBlocks_of_inFlow hflow
    · exact closeBlocks_of_noIndents hflow
  have hrest' : s'.cursor.rest = r := by
    rw [hcursor, Cursor.rest_advance, hrest, List.drop_succ_cons, List.drop_left]
  refine ⟨?_, ?_, hgoes⟩
  · rw [fetch_of_token hrest (startsToken_of_isIndicator hx), hclose, hfetch]
    exact congrArg Except.ok (skipLineComment_of_noComment (hrest' ▸ htight).noComment)
  · rw [hrest', hrest, List.length_cons, List.length_append]
    omega

/-- The brackets of a collection, with their tokens. -/
inductive Brackets : Char → Char → Lexeme → Lexeme → Prop
  | sequence : Brackets '[' ']' .flowSequenceStart .flowSequenceEnd
  | mapping : Brackets '{' '}' .flowMappingStart .flowMappingEnd

namespace Brackets

variable {x y : Char} {start stop : Lexeme} (hb : Brackets x y start stop)
include hb

theorem isIndicator_open : isIndicator x = true := by
  cases hb <;> rfl

theorem isIndicator_close : isIndicator y = true := by
  cases hb <;> rfl

theorem start_ne : start ≠ .streamEnd := by
  cases hb <;> simp

theorem stop_ne : stop ≠ .streamEnd := by
  cases hb <;> simp

/-- After an entry, another one or the end of the collection follows. -/
theorem tight_more (ws : List Text) (r : List Char) :
    Tight (Text.chars (ws.flatMap (Compact.comma :: ·)) ++ y :: r) := by
  cases ws with
  | nil => exact tight_cons hb.isIndicator_close r
  | cons w ws => exact tight_cons rfl _

theorem fetchFrom_open (s : ScanState) :
    s.fetchFrom x = skipLineComment <$> s.fetchFlowStart start := by
  cases hb <;> rfl

theorem fetchFrom_close (s : ScanState) :
    s.fetchFrom y = skipLineComment <$> s.fetchFlowEnd stop := by
  cases hb <;> rfl

end Brackets

/-- The collection that starts here is entered. -/
theorem fetches_open {x y : Char} {start stop : Lexeme} (hb : Brackets x y start stop)
    {s : ScanState} {r : List Char} (hs : s.AtValue) (hrest : s.cursor.rest = x :: r)
    (htight : Tight r) (hdepth : s.outer.length < maxDepth) :
    Fetches s (s.within none true 1 [start]) := by
  refine fetches_of_fetchFrom (w := []) hs.flow hrest hb.isIndicator_open ?_ rfl htight ?_
  · rw [hb.fetchFrom_open, fetchFlowStart, saveCandidate_eq hs.unforced]
    show skipLineComment <$> (if s.outer.length ≥ maxDepth then _ else _) = _
    rw [if_neg (Nat.not_le.mpr hdepth)]
    rfl
  · intro t ht
    cases ht
    exact hb.start_ne

/-- The collection that started in `s` is left. -/
theorem fetches_close {x y : Char} {start stop : Lexeme} (hb : Brackets x y start stop)
    {s : ScanState} {k? : Option KeyCandidate} (hk : Unforced k?) {allowed : Bool} {n : Nat}
    {before : List Lexeme} {r : List Char} (hrest : s.cursor.rest.drop n = y :: r)
    (htight : Tight r) :
    Fetches (s.within k? allowed n before) (s.past (n + 1) (before ++ [stop])) := by
  rw [past, read_concat]
  refine fetches_of_fetchFrom (w := []) (.inl rfl) hrest hb.isIndicator_close ?_ rfl htight ?_
  · rw [hb.fetchFrom_close, fetchFlowEnd, dropCandidate_eq hk]
    rfl
  · intro t ht
    cases ht
    exact hb.stop_ne

/-- A comma is read between the entries of a collection. -/
theorem fetches_comma {s : ScanState} {k? : Option KeyCandidate} (hk : Unforced k?)
    {allowed : Bool} {n : Nat} {before : List Lexeme} {r : List Char}
    (hrest : s.cursor.rest.drop n = ',' :: r) (htight : Tight r) :
    Fetches (s.within k? allowed n before)
      (s.within none true (n + 1) (before ++ [.flowEntry])) := by
  rw [within, within, read_concat]
  refine fetches_of_fetchFrom (w := []) (.inl rfl) hrest rfl ?_ rfl htight ?_
  · show skipLineComment <$> fetchFlowEntry _ = _
    rw [fetchFlowEntry, dropCandidate_eq hk]
    rfl
  · intro t ht
    cases ht
    simp

/-- A token is put in before the last one. -/
theorem insert_within (s : ScanState) (k? : Option KeyCandidate) (allowed : Bool) (n : Nat)
    (before : List Lexeme) (last lexeme : Lexeme) :
    (s.within k? allowed n (before ++ [last])).insert (s.count + before.length) s.cursor.line lexeme
      = s.within k? allowed n (before ++ [lexeme, last]) := by
  have hlater : s.count + (before ++ [last]).length - (s.count + before.length) = 1 := by
    rw [List.length_append, List.length_singleton]
    omega
  simp only [insert, within, read, hlater]
  simp [Nat.add_assoc]

/-- The name of a member turns out to be a key. -/
theorem fetches_colon {s : ScanState} {k : KeyCandidate} {n : Nat} {before : List Lexeme}
    {name : Lexeme} {r : List Char} (hposition : k.position = s.count + before.length)
    (hline : k.line = s.cursor.line) (hnear : s.cursor.index + n ≤ k.index + 1024)
    (hrest : s.cursor.rest.drop n = ':' :: r) (htight : Tight r) :
    Fetches (s.within (some k) false n (before ++ [name]))
      (s.within none false (n + 1) (before ++ [.key, name] ++ [.value])) := by
  have hlive : (s.within (some k) false n (before ++ [name])).liveCandidate? = .ok (some k) := by
    have hisLive : k.isLive (s.cursor.advance n) = true := by
      simp [KeyCandidate.isLive, hline, hnear]
    show (if k.isLive (s.cursor.advance n) then _ else _) = _
    rw [if_pos hisLive]
  rw [within.eq_def _ none, read_concat]
  refine fetches_of_fetchFrom (w := []) (.inl rfl) hrest rfl ?_ rfl htight ?_
  · show skipLineComment <$> fetchValue _ = _
    rw [fetchValue, hlive]
    simp only [bind, Except.bind, hposition, hline, insert_within]
    rfl
  · intro t ht
    cases ht
    simp

/-! ## Texts -/

open StateForge.Compact

theorem drop_add_length {l : List Char} {n : Nat} {w : Text} {r : List Char}
    (h : l.drop n = w.chars ++ r) : l.drop (n + w.length) = r := by
  rw [← List.drop_drop, h, ← Text.length_chars, List.drop_left]

/-- The text is read as these tokens, wherever a value may stand. -/
structure Scans (depth : Nat) (w : Text) (lexemes : List Lexeme) : Prop where
  opens : ∀ r, Tight (w.chars ++ r)
  reaches : ∀ (s : ScanState) (r : List Char), s.AtValue → s.cursor.rest = w.chars ++ r → Tight r →
    s.outer.length + depth ≤ maxDepth → Reaches s (s.past w.length lexemes)

theorem chars_quoted (t : Text) : (quoted t).chars = '"' :: (t.chars ++ ['"']) := by
  rw [quoted, List.cons_append, Text.chars_cons, Text.chars_append]
  rfl

theorem scans_quoted {t : Text} (h : t.Over isQuotable) (depth : Nat) :
    Scans depth (quoted t) [.scalar t false] := by
  refine ⟨fun r => chars_quoted t ▸ tight_cons rfl _, fun s r hs hrest htight _ => .single ?_⟩
  rw [chars_quoted, List.cons_append] at hrest
  have hskip := Cursor.skip_eq_advance hrest
  have hinside : s.cursor.skip.rest = t.chars ++ '"' :: r := by
    rw [hskip, Cursor.rest_advance, hrest]
    simp
  have hright : 0 < s.cursor.skip.column := by
    rw [hskip]
    exact Nat.succ_pos _
  have hfuel : t.length < s.cursor.fuel := by
    rw [Cursor.fuel, hrest]
    simp
    omega
  have hlength : 1 + (t.length + 1) = (quoted t).length := by
    simp [quoted]
    omega
  have hscan : scanQuoted false s.cursor.fuel [] s.cursor.skip
      = .ok (t.chars, s.cursor.advance (quoted t).length) := by
    rw [scanQuoted_quotable h hinside hright [] hfuel, hskip, Cursor.advance_advance, hlength]
    rfl
  refine fetches_of_fetchFrom hs.flow hrest rfl ?_ ?_ htight ?_
  · show skipLineComment <$> fetchQuotedScalar s false = _
    rw [fetchQuotedScalar, saveCandidate_eq hs.unforced]
    simp only [bind, Except.bind, hscan, Text.ofChars_chars h.isAscii]
    rfl
  · simp [past, read, quoted]
  · intro t ht
    cases ht
    simp

/-- The text is read as these tokens, wherever an entry of a collection may stand. -/
structure EntryScans (depth : Nat) (w : Text) (lexemes : List Lexeme) : Prop where
  opens : ∀ r, Tight (w.chars ++ r)
  reaches : ∀ (s : ScanState) (n : Nat) (before : List Lexeme) (r : List Char),
    s.outer.length + depth < maxDepth → s.cursor.rest.drop n = w.chars ++ r → Tight r →
    ∃ k?, Unforced k? ∧ Reaches (s.within none true n before)
      (s.within k? false (n + w.length) (before ++ lexemes))

theorem atValue_within (s : ScanState) (allowed : Bool) (n : Nat) (before : List Lexeme) :
    (s.within none allowed n before).AtValue :=
  ⟨.inl rfl, unforced_none⟩

/-- A value is an item. -/
theorem entryScans_item {depth : Nat} {w : Text} {lexemes : List Lexeme}
    (h : Scans depth w lexemes) : EntryScans depth w lexemes := by
  refine ⟨h.opens, fun s n before r hdepth hrest htight => ?_⟩
  have hat := s.atValue_within true n before
  refine ⟨_, unforced_noted hat.unforced hat.flow, ?_⟩
  rw [← past_within]
  refine h.reaches _ r hat hrest htight ?_
  show s.outer.length + 1 + depth ≤ maxDepth
  omega

/-- A name that is short enough and a value are a member. -/
theorem entryScans_member {depth : Nat} {name w : Text} {lexemes : List Lexeme}
    (hname : name.Over isQuotable) (hshort : name.length ≤ 1000) (h : Scans depth w lexemes) :
    EntryScans depth (member (name, w)) (.key :: .scalar name false :: .value :: lexemes) := by
  have hchars : (member (name, w)).chars = (quoted name).chars ++ ':' :: w.chars := by
    rw [member, Text.chars_append, Text.chars_cons]
    rfl
  have hopens := (scans_quoted hname depth).opens
  refine ⟨fun r => by rw [hchars, List.append_assoc]; exact hopens _, ?_⟩
  intro s n before r hdepth hrest htight
  rw [hchars, List.append_assoc, List.cons_append] at hrest
  have hdeep : s.outer.length + 1 + depth ≤ maxDepth := by omega
  have hlength : (quoted name).length = name.length + 2 := by simp [quoted]
  -- the name is a candidate, which the colon makes a key
  have hkey := (scans_quoted hname depth).reaches (s.within none true n before) _
    (s.atValue_within true n before) hrest (tight_cons rfl _) hdeep
  rw [past_within] at hkey
  have hcolon : s.cursor.rest.drop (n + (quoted name).length) = ':' :: (w.chars ++ r) :=
    drop_add_length hrest
  have hnoted : (s.within none true n before).noted =
      some ⟨s.count + before.length, s.cursor.index + n, s.cursor.line, s.cursor.column + n,
        false⟩ := rfl
  rw [hnoted] at hkey
  have hnear : s.cursor.index + (n + (quoted name).length) ≤ s.cursor.index + n + 1024 := by omega
  have hvalue := hkey.tail (fetches_colon rfl rfl hnear hcolon (h.opens r))
  have hrest' : s.cursor.rest.drop (n + (quoted name).length + 1) = w.chars ++ r := by
    rw [← List.drop_drop, hcolon]
    rfl
  have hend : n + (quoted name).length + 1 + w.length = n + (member (name, w)).length := by
    simp only [member, List.length_append, List.length_cons]
    omega
  have hall := hvalue.trans (h.reaches _ r (s.atValue_within false _ _) hrest' htight hdeep)
  rw [past_within, noted_within, hend] at hall
  exact ⟨none, unforced_none, by simpa using hall⟩

/-- After an entry, the others are read, and the collection is left. -/
theorem reaches_entries {x y : Char} {start stop : Lexeme} (hb : Brackets x y start stop)
    {depth : Nat} {ws : List Text} {lss : List (List Lexeme)}
    (h : List.Forall₂ (EntryScans depth) ws lss) {s : ScanState} {k? : Option KeyCandidate}
    (hk : Unforced k?) {n : Nat} {before : List Lexeme} {r : List Char}
    (hdepth : s.outer.length + depth < maxDepth)
    (hrest : s.cursor.rest.drop n = Text.chars (ws.flatMap (comma :: ·)) ++ y :: r)
    (htight : Tight r) :
    Reaches (s.within k? false n before)
      (s.past (n + (ws.flatMap (comma :: ·)).length + 1)
        (before ++ lss.flatMap (.flowEntry :: ·) ++ [stop])) := by
  induction h generalizing k? n before with
  | nil => simpa using Relation.ReflTransGen.single (fetches_close hb hk hrest htight)
  | @cons w lexemes ws lss hw _ ih =>
    rw [List.flatMap_cons, List.cons_append, Text.chars_cons, Text.chars_append, List.cons_append,
      List.append_assoc] at hrest
    have hcomma : Fetches (s.within k? false n before)
        (s.within none true (n + 1) (before ++ [.flowEntry])) := fetches_comma hk hrest (hw.opens _)
    have hrest' : s.cursor.rest.drop (n + 1)
        = w.chars ++ (Text.chars (ws.flatMap (comma :: ·)) ++ y :: r) := by
      rw [← List.drop_drop, hrest]
      rfl
    obtain ⟨k'?, hk', hentry⟩ := hw.reaches s (n + 1) (before ++ [.flowEntry]) _ hdepth hrest'
      (hb.tight_more ws r)
    have hall := (hentry.head hcomma).trans (ih hk' (drop_add_length hrest'))
    have hend : n + 1 + w.length + (ws.flatMap (comma :: ·)).length + 1
        = n + ((w :: ws).flatMap (comma :: ·)).length + 1 := by
      rw [List.flatMap_cons, List.cons_append, List.length_cons, List.length_append]
      omega
    rw [hend] at hall
    simpa using hall

/-- **A collection is read**, if its entries are. -/
theorem scans_collection {b c : UInt8} {start stop : Lexeme}
    (hb : Brackets (Char.ofNat b.toNat) (Char.ofNat c.toNat) start stop) {depth : Nat}
    {ws : List Text} {lss : List (List Lexeme)} (h : List.Forall₂ (EntryScans depth) ws lss) :
    Scans (depth + 1) (b :: List.intercalate [comma] ws ++ [c])
      (start :: List.intercalate [.flowEntry] lss ++ [stop]) := by
  have hchars : Text.chars (b :: List.intercalate [comma] ws ++ [c]) = Char.ofNat b.toNat ::
      (Text.chars (List.intercalate [comma] ws) ++ [Char.ofNat c.toNat]) := by
    rw [List.cons_append, Text.chars_cons, Text.chars_append]
    rfl
  refine ⟨fun r => hchars ▸ tight_cons hb.isIndicator_open _, ?_⟩
  intro s r hs hrest htight hdepth
  rw [hchars, List.cons_append, List.append_assoc, List.singleton_append] at hrest
  have hroom : s.outer.length + depth < maxDepth := by omega
  have hinside : s.cursor.rest.drop 1
      = Text.chars (List.intercalate [comma] ws) ++ Char.ofNat c.toNat :: r := by
    rw [hrest, List.drop_one, List.tail_cons]
  cases h with
  | nil =>
    have hopen := fetches_open hb hs hrest (tight_cons hb.isIndicator_close r) (by omega)
    exact (Relation.ReflTransGen.single hopen).tail (fetches_close hb unforced_none hinside htight)
  | @cons w lexemes ws lss hw hws =>
    rw [intercalate_cons, Text.chars_append, List.append_assoc] at hrest hinside
    have hopen := fetches_open hb hs hrest (hw.opens _) (by omega)
    obtain ⟨k?, hk, hentry⟩ := hw.reaches s 1 [start] _ hroom hinside (hb.tight_more ws r)
    have hall := (hentry.head hopen).trans
      (reaches_entries hb hws hk hroom (drop_add_length hinside) htight)
    have hend : 1 + w.length + (ws.flatMap (comma :: ·)).length + 1
        = (b :: List.intercalate [comma] (w :: ws) ++ [c]).length := by
      rw [intercalate_cons, List.cons_append, List.length_cons, List.length_append,
        List.length_append, List.length_singleton]
      omega
    rw [hend] at hall
    rw [intercalate_cons Lexeme.flowEntry]
    simpa using hall

theorem scans_list {depth : Nat} {ws : List Text} {lss : List (List Lexeme)}
    (h : List.Forall₂ (Scans depth) ws lss) :
    Scans (depth + 1) (list ws)
      (.flowSequenceStart :: List.intercalate [.flowEntry] lss ++ [.flowSequenceEnd]) :=
  scans_collection (b := 0x5b) (c := 0x5d) .sequence (h.imp fun _ _ => entryScans_item)

/-- The tokens of a member, given its name and the tokens of its value. -/
def memberLexemes (p : Text × List Lexeme) : List Lexeme :=
  .key :: .scalar p.1 false :: .value :: p.2

/-- The member is read as its name and the tokens of its value. -/
structure ScansMember (depth : Nat) (m : Text × Text) (p : Text × List Lexeme) : Prop where
  name_eq : m.1 = p.1
  name_ok : m.1.Over isQuotable
  short : m.1.length ≤ 1000
  scans : Scans depth m.2 p.2

theorem scans_record {depth : Nat} {ms : List (Text × Text)} {ps : List (Text × List Lexeme)}
    (h : List.Forall₂ (ScansMember depth) ms ps) :
    Scans (depth + 1) (record ms) (.flowMappingStart ::
      List.intercalate [.flowEntry] (ps.map memberLexemes) ++ [.flowMappingEnd]) := by
  refine scans_collection (b := 0x7b) (c := 0x7d) .mapping ?_
  rw [List.forall₂_map_left_iff, List.forall₂_map_right_iff]
  refine h.imp fun m p hm => ?_
  rw [memberLexemes, ← hm.name_eq]
  exact entryScans_member hm.name_ok hm.short hm.scans

end ScanState

/-- **The tokens of a text that is one value.** -/
theorem Token.scan_of_scans {depth : Nat} {w : Text} {lexemes : List Lexeme}
    (h : ScanState.Scans depth w lexemes) (hdepth : depth ≤ ScanState.maxDepth) (hne : w ≠ []) :
    Token.scan ⟨w.chars, true⟩ = lexemes.map (Token.mk 0) ++ [⟨1, .streamEnd⟩] := by
  have hreaches := h.reaches { cursor := { rest := w.chars } } []
    ⟨.inr rfl, ScanState.unforced_none⟩ (List.append_nil _).symm ScanState.tight_nil
    (by simpa using hdepth)
  obtain ⟨fuel, hfuel, hrun⟩ := ScanState.run_of_reaches hreaches
    (show w.chars.length < w.chars.length + 2 by omega)
  obtain ⟨fuel, rfl⟩ := Nat.exists_eq_add_one.mpr (Nat.zero_lt_of_lt hfuel)
  have hend : w.chars.drop w.length = [] := by
    rw [← Text.length_chars, List.drop_length]
  have hcolumn : (0 + w.length == 0) = false := by simpa using hne
  rw [Token.scan, hrun, ScanState.run, ScanState.fetch_at_end hend,
    ScanState.closeBlocks_of_noIndents rfl, ScanState.fetchStreamEnd]
  simp only [ScanState.past, ScanState.read, Cursor.column_advance, hcolumn, Bool.false_eq_true,
    if_false]
  show List.reverse (⟨1, .streamEnd⟩ :: ((lexemes.map (Token.mk 0)).reverse ++ [])) = _
  simp

end Yaml
end StateForge
