import Mathlib.Logic.Relation
import StateForge.Proofs.Compact.Rendering
import StateForge.Yaml.TokenStream

/-!
# Reading the tokens of a YAML text

How the scanner gets from one token to the next, for texts in ASCII.

* `CharStream.ofText_of_showing`: in such a text every block is good, so all its characters are
  read.
* `ScanState.Fetches` is one step of the scanner that reads a token and goes on, and
  `ScanState.run_of_reaches` lets `run` take any number of them: every step uses up a character, so
  there is always fuel left.
* `ScanState.fetch_of_token` and `ScanState.skipLineComment_of_noComment`: where a token starts
  nothing is skipped before it, and where no comment follows nothing is skipped after it.
* `ScanState.saveCandidate_eq` and `ScanState.dropCandidate_eq`: a candidate that is not required
  comes and goes without a fault.
* `scanQuoted_quotable`: what stands in double quotes is read as it is.
-/

set_option autoImplicit false

namespace StateForge

/-! ## Characters -/

/-- Bytes that show, the space, and the end of a line. -/
def isShowingByte (b : UInt8) : Bool :=
  b == 0x0a || (0x20 ≤ b && b ≤ 0x7e)

theorem isShowingByte_iff {b : UInt8} :
    isShowingByte b = true ↔ b.toNat = 0x0a ∨ 0x20 ≤ b.toNat ∧ b.toNat ≤ 0x7e := by
  simp only [isShowingByte, Bool.or_eq_true, Bool.and_eq_true, decide_eq_true_eq, beq_iff_eq,
    UInt8.le_iff_toNat_le, ← UInt8.toNat_inj, UInt8.reduceToNat]

theorem toNat_ofNat_toNat {b : UInt8} : (Char.ofNat b.toNat).toNat = b.toNat := by
  have hlt := b.toNat_lt
  have hvalid : b.toNat.isValidChar := .inl (by omega)
  rw [Char.ofNat, dif_pos hvalid]
  rfl

namespace Yaml

theorem Block.ofUtf8_of_showing {s : Text} (h : s.Over isShowingByte) :
    Block.ofUtf8 s = .good s.chars [] := by
  induction s with
  | nil => rfl
  | cons b s ih =>
    obtain ⟨hb, hs⟩ := List.forall_mem_cons.mp h
    rw [isShowingByte_iff] at hb
    have hascii : b < 0x80 := UInt8.lt_iff_toNat_lt.mpr (show b.toNat < 128 by omega)
    have hallowed : isAllowedChar (Char.ofNat b.toNat) = true := by
      simp only [isAllowedChar, toNat_ofNat_toNat, Bool.or_eq_true, Bool.and_eq_true, beq_iff_eq,
        decide_eq_true_eq]
      omega
    rw [ofUtf8.eq_def]
    simp only [hascii, if_true, ih hs, cons, hallowed, Text.chars_cons]

theorem CharStream.readBlocks_of_showing {s : Text} (h : s.Over isShowingByte)
    {fuel : Nat} (hfuel : s.length < fuel) :
    readBlocks .utf8 fuel blockSize [] s = ⟨s.chars, true⟩ := by
  induction fuel generalizing s with
  | zero => exact absurd hfuel (Nat.not_lt_zero _)
  | succ fuel ih =>
    have hgood := Block.ofUtf8_of_showing (s := s.take blockSize) fun b hb =>
      h b (List.mem_of_mem_take hb)
    have hsplit := List.take_append_drop blockSize s
    rw [readBlocks, List.nil_append, Block.read, hgood]
    simp only
    split
    · rename_i hdrop
      rw [hdrop, List.append_nil] at hsplit
      rw [hsplit, beq_self_eq_true]
    · rename_i b rest hdrop
      have hlength : (b :: rest).length < fuel := by
        have hne : s.length - blockSize ≠ 0 := by
          rw [← List.length_drop, hdrop]
          exact Nat.succ_ne_zero _
        have hsize : blockSize = 512 := rfl
        rw [← hdrop, List.length_drop]
        omega
      have hmore := ih (fun b' hb' => h b' (List.mem_of_mem_drop (hdrop ▸ hb'))) hlength
      rw [hdrop] at hsplit
      simp only [List.length_nil, Nat.sub_zero, hmore, ← Text.chars_append, hsplit]

theorem CharStream.ofText_of_showing {s : Text} (h : s.Over isShowingByte) :
    CharStream.ofText s = ⟨s.chars, true⟩ := by
  have hdetect : Encoding.detect s = (.utf8, 0) := by
    rw [Encoding.detect.eq_def]
    split
    · exact absurd (h 0xff (by simp)) (by decide)
    · exact absurd (h 0xfe (by simp)) (by decide)
    · exact absurd (h 0xef (by simp)) (by decide)
    · rfl
  rw [ofText, hdetect]
  exact readBlocks_of_showing h (Nat.lt_succ_self _)

/-! ## Cursors -/

namespace Cursor

@[simp] theorem rest_advance (c : Cursor) (n : Nat) : (c.advance n).rest = c.rest.drop n := rfl

@[simp] theorem index_advance (c : Cursor) (n : Nat) : (c.advance n).index = c.index + n := rfl

@[simp] theorem line_advance (c : Cursor) (n : Nat) : (c.advance n).line = c.line := rfl

@[simp] theorem column_advance (c : Cursor) (n : Nat) : (c.advance n).column = c.column + n := rfl

@[simp] theorem advance_advance (c : Cursor) (m n : Nat) :
    (c.advance m).advance n = c.advance (m + n) := by
  simp [advance, Nat.add_assoc]

theorem skip_eq_advance {c : Cursor} {x : Char} {r : List Char} (h : c.rest = x :: r) :
    c.skip = c.advance 1 := by
  rw [skip, h]
  simp [advance, h]

theorem atDocumentMark_of_ne {c : Cursor} {x : Char} {r : List Char} (hrest : c.rest = x :: r)
    (hx : x ≠ '-' ∧ x ≠ '.') : c.atDocumentMark = false := by
  rw [atDocumentMark, hrest]
  simp [hx.1, hx.2]

theorem atDocumentMark_of_column {c : Cursor} (h : 0 < c.column) : c.atDocumentMark = false := by
  rw [atDocumentMark, beq_false_of_ne (Nat.ne_of_gt h), Bool.false_and, Bool.false_and]

end Cursor

namespace ScanState

/-! ## Going on -/

/-- The scanner reads a token, and what comes with it, and goes on. -/
structure Fetches (s s' : ScanState) : Prop where
  ok : s.fetch true = .ok s'
  shorter : s'.cursor.rest.length < s.cursor.rest.length
  goesOn : ∀ t, s'.tokens.head? = some t → t.lexeme ≠ .streamEnd

/-- The scanner gets from one state to another. -/
abbrev Reaches : ScanState → ScanState → Prop :=
  Relation.ReflTransGen Fetches

/-- **The scanner runs from one state on as from another that it reaches.** -/
theorem run_of_reaches {s s' : ScanState} (h : Reaches s s') {fuel : Nat}
    (hfuel : s.cursor.rest.length < fuel) :
    ∃ fuel', s'.cursor.rest.length < fuel' ∧ run true fuel s = run true fuel' s' := by
  induction h using Relation.ReflTransGen.head_induction_on generalizing fuel with
  | refl => exact ⟨fuel, hfuel, rfl⟩
  | @head s s₁ hstep _ ih =>
    obtain ⟨fuel, rfl⟩ := Nat.exists_eq_add_one.mpr (Nat.zero_lt_of_lt hfuel)
    obtain ⟨fuel', hfuel', hrun⟩ := ih (Nat.lt_of_lt_of_le hstep.shorter (Nat.le_of_lt_succ hfuel))
    refine ⟨fuel', hfuel', ?_⟩
    rw [← hrun, run, hstep.ok]
    simp only
    split
    · rename_i htokens
      exact absurd rfl (hstep.goesOn _ (by rw [htokens]; rfl))
    · rfl

/-! ## Where a token starts -/

/-- The character starts a token, whatever stands before it on its line: it is no blank, ends no
line, starts no comment or directive, and cannot belong to a line that starts or ends a document. -/
structure StartsToken (x : Char) : Prop where
  notBlank : isBlank x = false
  notBreak : isBreak x = false
  notComment : x ≠ '#'
  notDirective : x ≠ '%'
  notMark : x ≠ '-' ∧ x ≠ '.'

variable {s : ScanState} {x : Char} {r : List Char}

theorem toNextToken_of_token (hrest : s.cursor.rest = x :: r) (hx : StartsToken x) :
    toNextToken s.cursor.fuel s = s := by
  have hblank := hx.notBlank
  rw [isBlank, Bool.or_eq_false_iff] at hblank
  have hskip : ∀ tabs : Bool,
      s.cursor.skipWhile (fun x => x == ' ' || (tabs && x == '\t')) = s.cursor := by
    intro tabs
    rw [Cursor.skipWhile, hrest, List.takeWhile_cons_of_neg (by simp [hblank])]
    rfl
  have hcomment : s.cursor.isOn '#' = false := by
    rw [Cursor.isOn, hrest]
    simpa using hx.notComment
  have hline : s.cursor.atLineEnd = false := by
    rw [Cursor.atLineEnd, hrest]
    exact hx.notBreak
  rw [Cursor.fuel, toNextToken]
  simp only [hskip, hcomment, hline, Bool.false_eq_true, Bool.and_false, if_false]

theorem cursor_closeDeeper (s : ScanState) (column : Nat) (indents : List Nat) :
    (s.closeDeeper column indents).cursor = s.cursor := by
  induction indents generalizing s with
  | nil => rfl
  | cons i indents ih =>
    rw [closeDeeper]
    split
    · rw [ih]
      rfl
    · rfl

theorem cursor_closeBlocks (s : ScanState) : s.closeBlocks.cursor = s.cursor := by
  rw [closeBlocks]
  split
  · rfl
  · exact cursor_closeDeeper _ _ _

/-- **Where a token starts, it is read.** -/
theorem fetch_of_token (hrest : s.cursor.rest = x :: r) (hx : StartsToken x) :
    s.fetch true = s.closeBlocks.fetchFrom x := by
  have hmark : s.cursor.atDocumentMark = false := Cursor.atDocumentMark_of_ne hrest hx.notMark
  have hdirective : (x == '%') = false := beq_false_of_ne hx.notDirective
  rw [fetch]
  simp only [toNextToken_of_token hrest hx, cursor_closeBlocks, hrest, hmark, hdirective,
    Bool.not_true, Bool.false_and, Bool.false_eq_true, if_false]
  cases s.closeBlocks.fetchFrom x <;> rfl

/-- **Where the text ends, everything is closed.** -/
theorem fetch_at_end (hrest : s.cursor.rest = []) :
    s.fetch true = s.closeBlocks.fetchStreamEnd := by
  have hnext : toNextToken s.cursor.fuel s = s := by
    have hskip : ∀ p : Char → Bool, s.cursor.skipWhile p = s.cursor := by
      intro p
      rw [Cursor.skipWhile, hrest]
      rfl
    have hcomment : s.cursor.isOn '#' = false := by
      rw [Cursor.isOn, hrest]
      rfl
    rw [Cursor.fuel, toNextToken]
    simp only [hskip, hcomment, hrest, bne_self_eq_false, Bool.false_and, Bool.false_eq_true,
      if_false]
  rw [fetch]
  simp only [hnext, cursor_closeBlocks, hrest, Bool.not_true, Bool.false_and, Bool.false_eq_true,
    if_false]
  cases s.closeBlocks.fetchStreamEnd <;> rfl

theorem closeBlocks_of_inFlow (h : s.inFlow = true) : s.closeBlocks = s := by
  rw [closeBlocks, if_pos h]

theorem closeBlocks_of_noIndents (h : s.indents = []) : s.closeBlocks = s := by
  rw [closeBlocks, h]
  split
  · rfl
  · obtain ⟨⟩ := s
    cases h
    rfl

/-! ## Where a token ends -/

/-- **Where no comment follows, nothing is skipped.** -/
theorem skipLineComment_of_noComment (h : (s.cursor.rest.dropWhile isBlank).head? ≠ some '#') :
    s.skipLineComment = s := by
  have hdrop : s.cursor.rest.drop (s.cursor.rest.takeWhile isBlank).length
      = s.cursor.rest.dropWhile isBlank := by
    have happend := List.takeWhile_append_dropWhile (p := isBlank) (l := s.cursor.rest)
    calc s.cursor.rest.drop (s.cursor.rest.takeWhile isBlank).length
        = (s.cursor.rest.takeWhile isBlank ++ s.cursor.rest.dropWhile isBlank).drop
            (s.cursor.rest.takeWhile isBlank).length := by rw [happend]
      _ = s.cursor.rest.dropWhile isBlank := List.drop_left
  rw [skipLineComment]
  simp only [Cursor.isOn, Cursor.rest_advance, hdrop, beq_false_of_ne h, Bool.and_false,
    Bool.false_eq_true, if_false]

/-! ## Candidates for keys -/

/-- The candidate may turn out to be no key. -/
def Unforced (k? : Option KeyCandidate) : Prop :=
  ∀ k, k? = some k → k.required = false

theorem unforced_none : Unforced none := fun _ hk => absurd hk (by simp)

/-- The candidate while the next token is read: the token itself, if a key may start here. -/
def noted (s : ScanState) : Option KeyCandidate :=
  if s.keyAllowed then
    let c := s.cursor
    some ⟨s.count, c.index, c.line, c.column, !s.inFlow && s.indents.head? == some c.column⟩
  else s.candidate?

theorem dropCandidate_eq (h : Unforced s.candidate?) :
    s.dropCandidate = .ok { s with candidate? := none } := by
  rw [dropCandidate]
  split
  · rename_i k hk
    rw [h k hk]
    rfl
  · rename_i hk
    rw [← hk]

theorem saveCandidate_eq (h : Unforced s.candidate?) :
    s.saveCandidate = .ok { s with candidate? := s.noted } := by
  rw [saveCandidate, noted]
  split
  · rw [dropCandidate_eq h]
    rfl
  · rfl

/-- A candidate in a flow collection or to the right of all blocks is not forced. -/
theorem unforced_noted (h : Unforced s.candidate?) (hflow : s.inFlow = true ∨ s.indents = []) :
    Unforced s.noted := by
  rw [noted]
  split
  · intro k hk
    cases hk
    rcases hflow with hflow | hflow <;> simp [hflow]
  · exact h

end ScanState

/-! ## Quoted scalars -/

/-- Such a byte means nothing of its own in double quotes. -/
theorem plain_of_isQuotable {b : UInt8} (h : isQuotable b = true) :
    isBlank (Char.ofNat b.toNat) = false ∧ isBreak (Char.ofNat b.toNat) = false ∧
      (Char.ofNat b.toNat == '"') = false ∧ (Char.ofNat b.toNat == '\\') = false := by
  obtain ⟨hlow, hhigh, hquote, hslash⟩ := isQuotable_iff.mp h
  have hne : ∀ x : Char, b.toNat ≠ x.toNat → (Char.ofNat b.toNat == x) = false := by
    intro x hx
    refine beq_false_of_ne ?_
    rintro rfl
    exact hx toNat_ofNat_toNat.symm
  refine ⟨?_, ?_, hne '"' hquote, hne '\\' hslash⟩
  · rw [isBlank, hne ' ' (show _ ≠ 0x20 by omega), hne '\t' (show _ ≠ 0x09 by omega)]
    rfl
  · rw [isBreak, hne '\n' (show _ ≠ 0x0a by omega), hne '\r' (show _ ≠ 0x0d by omega),
      hne '\u0085' (show _ ≠ 0x85 by omega), hne '\u2028' (show _ ≠ 0x2028 by omega),
      hne '\u2029' (show _ ≠ 0x2029 by omega)]
    rfl

/-- **What stands in double quotes is read as it is.** -/
theorem scanQuoted_quotable {t : Text} (h : t.Over isQuotable) {c : Cursor} {rest : List Char}
    (hrest : c.rest = t.chars ++ '"' :: rest) (hcolumn : 0 < c.column) (text : List Char)
    {fuel : Nat} (hfuel : t.length < fuel) :
    scanQuoted false fuel text c = .ok (text.reverse ++ t.chars, c.advance (t.length + 1)) := by
  induction t generalizing text c fuel with
  | nil =>
    obtain ⟨fuel, rfl⟩ := Nat.exists_eq_add_one.mpr (Nat.zero_lt_of_lt hfuel)
    rw [scanQuoted, Cursor.atDocumentMark_of_column hcolumn, hrest]
    rw [Cursor.skip_eq_advance hrest, Text.chars_nil, List.append_nil]
    rfl
  | cons b t ih =>
    obtain ⟨fuel, rfl⟩ := Nat.exists_eq_add_one.mpr (Nat.zero_lt_of_lt hfuel)
    obtain ⟨hb, ht⟩ := List.forall_mem_cons.mp h
    obtain ⟨hblank, hbreak, hquote, hslash⟩ := plain_of_isQuotable hb
    rw [Text.chars_cons, List.cons_append] at hrest
    have hskip := Cursor.skip_eq_advance hrest
    have hnext : c.skip.rest = Text.chars t ++ '"' :: rest := by
      rw [hskip, Cursor.rest_advance, hrest]
      rfl
    have hright : 0 < c.skip.column := by
      rw [hskip]
      exact Nat.succ_pos _
    rw [scanQuoted, Cursor.atDocumentMark_of_column hcolumn, hrest]
    simp only [hblank, hbreak, hquote, hslash, Bool.or_self, Bool.false_eq_true, if_false]
    rw [ih ht hnext hright _ (Nat.lt_of_succ_lt_succ hfuel), hskip, Cursor.advance_advance,
      List.reverse_cons, List.append_assoc, List.singleton_append, Nat.add_comm 1]
    rfl

end Yaml

end StateForge
