import StateForge.Proofs.Yaml.Scanning

/-!
# Blocks by their indentation

Outside of flow collections, the column of a line says which blocks it is in. The scanner opens a
block at the first token of a line further to the right (`ScanState.openBlock_eq`), and closes it
only when it sees a line further to the left. So what was read of a text is not known before the
next line: `ScanState.Ended` says what is known at the end of a line, which is which tokens there
will be, and which blocks will be open, as soon as the next line starts to the left of a certain
column. `Ended.leave` is how a block ends, and `Ended.fresh` is the start of the next line
(`ScanState.Fresh`).
-/

set_option autoImplicit false

namespace StateForge
namespace Yaml

namespace ScanState

/-! ## States -/

/-- The tokens that were read, without their lines. -/
def lexemes (s : ScanState) : List Lexeme :=
  s.tokens.reverse.map Token.lexeme

/-- Between two tokens, outside of flow collections and without a candidate for a key: what is open,
and what was read. -/
structure Holds (s : ScanState) (allowed : Bool) (indents : List Nat) (done : List Lexeme) :
    Prop where
  outer : s.outer = []
  candidate : s.candidate? = none
  keyAllowed : s.keyAllowed = allowed
  count : s.count = s.tokens.length
  indents : s.indents = indents
  lexemes : s.lexemes = done

variable {s s' : ScanState} {allowed : Bool} {indents : List Nat} {done : List Lexeme}

theorem Holds.inFlow (h : s.Holds allowed indents done) : s.inFlow = false := by
  rw [ScanState.inFlow, h.outer]
  rfl

theorem Holds.count_eq (h : s.Holds allowed indents done) : s.count = done.length := by
  rw [h.count, ← h.lexemes, ScanState.lexemes, List.length_map, List.length_reverse]

theorem lexemes_emit (s : ScanState) (lexeme : Lexeme) :
    (s.emit lexeme).lexemes = s.lexemes ++ [lexeme] := by
  simp [lexemes, emit, emitAt]

/-- A token is put in at its place. -/
theorem insert_eq {before after : List Lexeme} (hcount : s.count = s.tokens.length)
    (hlexemes : s.lexemes = before ++ after) (line : Nat) (lexeme : Lexeme) :
    ∃ ts, s.insert before.length line lexeme = { s with tokens := ts, count := ts.length } ∧
      ts.reverse.map Token.lexeme = before ++ lexeme :: after := by
  rw [lexemes] at hlexemes
  have htake : (s.tokens.reverse.take before.length).map Token.lexeme = before := by
    rw [List.map_take, hlexemes, List.take_left]
  have hdrop : (s.tokens.reverse.drop before.length).map Token.lexeme = after := by
    rw [List.map_drop, hlexemes, List.drop_left]
  rw [List.take_reverse] at htake
  rw [List.drop_reverse] at hdrop
  refine ⟨s.tokens.take (s.tokens.length - before.length) ++
    ⟨line, lexeme⟩ :: s.tokens.drop (s.tokens.length - before.length), ?_, ?_⟩
  · rw [insert, hcount]
    congr 1
    simp only [List.length_append, List.length_cons, List.length_take, List.length_drop]
    omega
  · simp only [List.reverse_append, List.reverse_cons, List.append_assoc, List.singleton_append,
      List.map_append, List.map_cons, htake, hdrop]

/-! ## Closing blocks -/

/-- After the ends of `k` blocks. -/
def closing (s : ScanState) (k : Nat) : ScanState :=
  { s with
    tokens := List.replicate k ⟨s.cursor.line, .blockEnd⟩ ++ s.tokens
    count := s.count + k }

theorem closing_emit (s : ScanState) (k : Nat) :
    (s.emit .blockEnd).closing k = s.closing (k + 1) := by
  simp [closing, emit, emitAt, List.replicate_succ', Nat.add_assoc, Nat.add_comm 1]

theorem lexemes_closing (s : ScanState) (k : Nat) :
    (s.closing k).lexemes = s.lexemes ++ List.replicate k .blockEnd := by
  simp [closing, lexemes]

/-- The blocks to the right of the column are closed, and the others stay open. -/
theorem closeDeeper_append (s : ScanState) {column : Nat} {more indents : List Nat}
    (hmore : ∀ i ∈ more, column < i) (hindents : ∀ i ∈ indents, i ≤ column) :
    s.closeDeeper column (more ++ indents) = { s.closing more.length with indents } := by
  induction more generalizing s with
  | nil =>
    cases indents with
    | nil => rfl
    | cons i indents =>
      rw [List.nil_append, closeDeeper, if_neg (Nat.not_lt.mpr (hindents i List.mem_cons_self))]
      rfl
  | cons i more ih =>
    obtain ⟨hi, hmore⟩ := List.forall_mem_cons.mp hmore
    rw [List.cons_append, closeDeeper, if_pos hi, ih _ hmore, closing_emit, List.length_cons]

theorem closeBlocks_append {more : List Nat} (h : s.Holds allowed (more ++ indents) done)
    (hmore : ∀ i ∈ more, s.cursor.column < i) (hindents : ∀ i ∈ indents, i ≤ s.cursor.column) :
    s.closeBlocks.Holds allowed indents (done ++ List.replicate more.length .blockEnd) := by
  rw [closeBlocks, if_neg (by simp [h.inFlow]), h.indents, closeDeeper_append s hmore hindents]
  exact {
    outer := h.outer
    candidate := h.candidate
    keyAllowed := h.keyAllowed
    count := by simp [closing, h.count, Nat.add_comm]
    indents := rfl
    lexemes := h.lexemes ▸ s.lexemes_closing more.length }

/-- Nothing is closed to the right of all blocks. -/
theorem closeBlocks_of_le (houter : s.outer = []) (h : ∀ i ∈ s.indents, i ≤ s.cursor.column) :
    s.closeBlocks = s := by
  rw [closeBlocks, if_neg (by simp [inFlow, houter]), ← List.nil_append s.indents,
    closeDeeper_append s (by simp) h]
  rfl

/-- Some of the blocks are closed, from the innermost on. -/
theorem closeDeeper_eq (s : ScanState) (column : Nat) (indents : List Nat) :
    ∃ closed rest, indents = closed ++ rest ∧
      s.closeDeeper column indents = { s.closing closed.length with indents := rest } := by
  induction indents generalizing s with
  | nil => exact ⟨[], [], rfl, rfl⟩
  | cons i indents ih =>
    rw [closeDeeper]
    split
    · obtain ⟨closed, rest, rfl, hclosed⟩ := ih (s.emit .blockEnd)
      exact ⟨i :: closed, rest, rfl, by rw [hclosed, closing_emit, List.length_cons]⟩
    · exact ⟨[], i :: indents, rfl, rfl⟩

theorem closeAllBlocks_eq (houter : s.outer = []) :
    s.closeAllBlocks = { s.closing s.indents.length with indents := [] } := by
  have hfold : ∀ (l : List Nat) (t : ScanState),
      l.foldl (fun t _ => t.emit .blockEnd) t = t.closing l.length := by
    intro l
    induction l with
    | nil => exact fun t => rfl
    | cons i l ih => exact fun t => by rw [List.foldl_cons, ih, closing_emit, List.length_cons]
  rw [closeAllBlocks, if_neg (by simp [inFlow, houter]), hfold]
  rfl

/-! ## Opening blocks -/

variable {n : Nat}

/-- The open blocks are to the left of a column. As they are in different columns, there are not too
many of them. -/
structure Below (indents : List Nat) (n : Nat) : Prop where
  lt : ∀ i ∈ indents, i < n
  length_le : indents.length ≤ n

theorem Below.cons (h : Below indents n) : Below (n :: indents) (n + 1) :=
  ⟨List.forall_mem_cons.mpr ⟨Nat.lt_succ_self n, fun i hi => Nat.lt_succ_of_lt (h.lt i hi)⟩,
    Nat.succ_le_succ h.length_le⟩

theorem Below.mono {m : Nat} (h : Below indents n) (hle : n ≤ m) : Below indents m :=
  ⟨fun i hi => (h.lt i hi).trans_le hle, h.length_le.trans hle⟩

/-- The blocks that are open at a part of the collection in column `n`: at the first part, the
collection is not among them. -/
def openAt (isOpen : Bool) (n : Nat) (indents : List Nat) : List Nat :=
  if isOpen then n :: indents else indents

/-- What a part of a collection adds to its own tokens. -/
def opening (isOpen : Bool) (start : Lexeme) : List Lexeme :=
  if isOpen then [] else [start]

/-- **A block is opened**, if it is not open yet. -/
theorem openBlock_eq {isOpen : Bool} {before after : List Lexeme} (houter : s.outer = [])
    (hcount : s.count = s.tokens.length) (hlexemes : s.lexemes = before ++ after)
    (hindents : s.indents = openAt isOpen n indents) (hbelow : Below indents n)
    (hdepth : n < maxDepth) (line : Nat) (start : Lexeme) :
    ∃ ts, s.openBlock n before.length line start =
        .ok { s with indents := n :: indents, tokens := ts, count := ts.length } ∧
      ts.reverse.map Token.lexeme = before ++ (opening isOpen start ++ after) := by
  have hflow : s.inFlow = false := by
    rw [inFlow, houter]
    rfl
  cases isOpen with
  | true =>
    refine ⟨s.tokens, ?_, hlexemes⟩
    have hopen : s.indents = n :: indents := hindents
    rw [openBlock, hflow, hopen, if_pos (by simp), ← hopen, ← hcount]
  | false =>
    obtain ⟨ts, hts, hread⟩ := insert_eq hcount hlexemes line start
    refine ⟨ts, ?_, hread⟩
    have hclosed : s.indents = indents := hindents
    have hhead : (s.indents.head?.any fun i => decide (n ≤ i)) = false := by
      rw [hclosed]
      cases indents with
      | nil => rfl
      | cons i indents =>
        exact decide_eq_false (Nat.not_le.mpr (hbelow.lt i List.mem_cons_self))
    have hlength : ¬ s.indents.length ≥ maxDepth := by
      rw [hclosed]
      exact Nat.not_le.mpr (hbelow.length_le.trans_lt hdepth)
    rw [openBlock, hflow, hhead, if_neg (by simp), if_neg hlength, hts, hclosed]

/-! ## To the next token -/

/-- The character is the first of a token: it is no blank, ends no line and starts no comment. -/
structure IsVisible (x : Char) : Prop where
  notBlank : isBlank x = false
  notBreak : isBreak x = false
  notComment : x ≠ '#'

theorem IsVisible.noComment {x : Char} (hx : IsVisible x) (r : List Char) :
    ((x :: r).dropWhile isBlank).head? ≠ some '#' := by
  rw [List.dropWhile_cons_of_neg (by simp [hx.notBlank])]
  exact fun h => hx.notComment (Option.some.inj h)

/-- A token follows. -/
def StartsVisibly (r : List Char) : Prop :=
  ∃ x r', r = x :: r' ∧ IsVisible x

variable {x : Char} {r : List Char}

theorem toNextToken_spaces (fuel : Nat) {k : Nat}
    (hrest : s.cursor.rest = List.replicate k ' ' ++ x :: r) (hx : IsVisible x) :
    toNextToken (fuel + 1) s = { s with cursor := s.cursor.advance k } := by
  have hblank := hx.notBlank
  rw [isBlank, Bool.or_eq_false_iff] at hblank
  have hskip : ∀ tabs : Bool,
      s.cursor.skipWhile (fun x => x == ' ' || (tabs && x == '\t')) = s.cursor.advance k := by
    intro tabs
    rw [Cursor.skipWhile, hrest, List.takeWhile_append_of_pos (by simp),
      List.takeWhile_cons_of_neg (by simp [hblank]), List.append_nil, List.length_replicate]
  have hnext : (s.cursor.advance k).rest = x :: r := by
    rw [Cursor.rest_advance, hrest, List.drop_left' List.length_replicate]
  have hcomment : (s.cursor.advance k).isOn '#' = false := by
    rw [Cursor.isOn, hnext]
    simpa using hx.notComment
  have hline : (s.cursor.advance k).atLineEnd = false := by
    rw [Cursor.atLineEnd, hnext]
    exact hx.notBreak
  rw [toNextToken]
  simp only [hskip, hcomment, hline, Bool.false_eq_true, Bool.and_false, if_false]

/-- After the end of a line, a key may start. -/
theorem toNextToken_newline (houter : s.outer = []) (hrest : s.cursor.rest = '\n' :: r) :
    toNextToken s.cursor.fuel s =
      toNextToken s.cursor.rest.length
        { s with
          cursor := ⟨r, s.cursor.index + 1, s.cursor.line + 1, 0⟩
          keyAllowed := true } := by
  have hskip : ∀ tabs : Bool,
      s.cursor.skipWhile (fun x => x == ' ' || (tabs && x == '\t')) = s.cursor := by
    intro tabs
    rw [Cursor.skipWhile, hrest, List.takeWhile_cons_of_neg (by simp)]
    rfl
  have hcomment : s.cursor.isOn '#' = false := by
    rw [Cursor.isOn, hrest]
    rfl
  have hline : s.cursor.atLineEnd = true := by
    rw [Cursor.atLineEnd, hrest]
    rfl
  have hbreak : s.cursor.skipBreak = ⟨r, s.cursor.index + 1, s.cursor.line + 1, 0⟩ := by
    rw [Cursor.skipBreak, hrest]
    rfl
  have hne : (s.cursor.rest != []) = true := by
    rw [hrest]
    rfl
  have hflow : s.inFlow = false := by
    rw [inFlow, houter]
    rfl
  rw [Cursor.fuel, toNextToken]
  simp only [hskip, hcomment, hline, hbreak, hne, hflow, Bool.false_eq_true, if_false,
    Bool.and_self, if_true, Bool.not_false, Bool.or_true]

/-- The state in which the next token is read. -/
def ready (s : ScanState) : ScanState :=
  (toNextToken s.cursor.fuel s).closeBlocks

theorem fetch_of_ready (hrest : s.ready.cursor.rest = x :: r) (hdirective : x ≠ '%')
    (hmark : s.ready.cursor.atDocumentMark = false) : s.fetch true = s.ready.fetchFrom x := by
  rw [ready] at hrest hmark ⊢
  rw [fetch]
  simp only [hrest, hmark, beq_false_of_ne hdirective, Bool.not_true, Bool.false_and,
    Bool.false_eq_true, if_false]
  cases (toNextToken s.cursor.fuel s).closeBlocks.fetchFrom x <;> rfl

/-- To the right of all blocks only spaces are skipped. -/
theorem ready_spaces {k : Nat} (houter : s.outer = [])
    (hright : ∀ i ∈ s.indents, i ≤ s.cursor.column)
    (hrest : s.cursor.rest = List.replicate k ' ' ++ x :: r) (hx : IsVisible x) :
    s.ready = { s with cursor := s.cursor.advance k } := by
  rw [ready, Cursor.fuel, toNextToken_spaces _ hrest hx]
  exact closeBlocks_of_le houter fun i hi => Nat.le_add_right_of_le (hright i hi)

/-! ## Lines -/

/-- On a line, after one of its tokens. -/
structure OnLine (s : ScanState) (indents : List Nat) (done : List Lexeme) (r : List Char) :
    Prop where
  holds : s.Holds false indents done
  rest : s.cursor.rest = r
  right : ∀ i ∈ indents, i < s.cursor.column

/-- Before a token in column `n` with which a key may start. -/
structure Fresh (s : ScanState) (n : Nat) (indents : List Nat) (done : List Lexeme)
    (r : List Char) : Prop where
  holds : s.ready.Holds true indents done
  rest : s.ready.cursor.rest = r
  column : s.ready.cursor.column = n
  shorter : r.length ≤ s.cursor.rest.length

/-- At the end of a line. If the next line starts to the left of `bound`, then the blocks that are
still open are those in `indents`, and `done` was read. -/
structure Ended (s : ScanState) (bound : Nat) (indents : List Nat) (done : List Lexeme)
    (r : List Char) : Prop where
  rest : s.cursor.rest = r
  closes : ∃ more before, s.Holds false (more ++ indents) before ∧ (∀ i ∈ more, bound ≤ i) ∧
    before ++ List.replicate more.length .blockEnd = done

theorem OnLine.ended (h : s.OnLine indents done r) (bound : Nat) :
    s.Ended bound indents done r :=
  ⟨h.rest, [], done, h.holds, by simp, by simp⟩

theorem Ended.mono {bound bound' : Nat} (h : s.Ended bound indents done r) (hle : bound' ≤ bound) :
    s.Ended bound' indents done r := by
  obtain ⟨more, before, hholds, hmore, hdone⟩ := h.closes
  exact ⟨h.rest, more, before, hholds, fun i hi => hle.trans (hmore i hi), hdone⟩

/-- **A block ends** when the next line is to the left of it. -/
theorem Ended.leave (h : s.Ended (n + 1) (n :: indents) done r) :
    s.Ended n indents (done ++ [.blockEnd]) r := by
  obtain ⟨more, before, hholds, hmore, rfl⟩ := h.closes
  refine ⟨h.rest, more ++ [n], before, by simpa using hholds, fun i hi => ?_, ?_⟩
  · rcases List.mem_append.mp hi with hi | hi
    · exact Nat.le_of_succ_le (hmore i hi)
    · exact (List.mem_singleton.mp hi).ge
  · rw [List.length_append, List.length_singleton, List.replicate_succ', List.append_assoc]

/-- **The next line starts.** -/
theorem Ended.fresh {bound : Nat}
    (h : s.Ended bound indents done ('\n' :: (List.replicate n ' ' ++ r)))
    (hbound : n < bound) (hindents : ∀ i ∈ indents, i ≤ n) (hr : StartsVisibly r) :
    s.Fresh n indents done r := by
  obtain ⟨x, r, rfl, hx⟩ := hr
  obtain ⟨more, before, hholds, hmore, rfl⟩ := h.closes
  have hnext : toNextToken s.cursor.fuel s =
      { s with
        cursor := ⟨x :: r, s.cursor.index + 1 + n, s.cursor.line + 1, n⟩
        keyAllowed := true } := by
    rw [toNextToken_newline hholds.outer h.rest, h.rest, List.length_cons,
      toNextToken_spaces (s := { s with cursor := ⟨_, _, _, 0⟩, keyAllowed := true }) _ rfl hx]
    simp [Cursor.advance]
  have hready : s.ready.cursor = ⟨x :: r, s.cursor.index + 1 + n, s.cursor.line + 1, n⟩ := by
    rw [ready, cursor_closeBlocks, hnext]
  refine ⟨?_, by rw [hready], by rw [hready], ?_⟩
  · rw [ready, hnext]
    refine closeBlocks_append ?_ (fun i hi => hbound.trans_le (hmore i hi)) hindents
    exact { hholds with keyAllowed := rfl, lexemes := hholds.lexemes }
  · rw [h.rest]
    simp only [List.length_cons, List.length_append]
    omega

end ScanState

end Yaml
end StateForge
